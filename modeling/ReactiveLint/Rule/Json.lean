import ReactiveLint.Data.Json
import ReactiveLint.Rule.Info

/-!
# Rule descriptions in JSON
-/

namespace ReactiveLint

def OptionSpec.toJson (spec : OptionSpec) : Json :=
  .object
    [ ("name", .str spec.name), ("kind", .str spec.kind.name)
    , ("default", .str spec.default), ("description", .str spec.description) ]

/-- What a rule says about itself; messages are pairs of an id and a template. -/
def RuleInfo.toJson (info : RuleInfo) : Json :=
  .object
    [ ("name", .str info.name), ("description", .str info.description)
    , ("category", .str info.category.name), ("stability", .str info.stability.name)
    , ("requires_type_checking", .bool info.needsTypes), ("fixable", .bool info.fixable)
    , ("has_suggestions", .bool info.hasSuggestions)
    , ("messages", .list (info.messages.map fun (id, template) =>
        .list [.str id, .str template]))
    , ("options", .list (info.options.map OptionSpec.toJson))
    , ("replaced_by", (info.replacedBy.map Json.str).getD .null) ]

end ReactiveLint
