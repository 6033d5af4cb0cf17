import ReactiveLint.Selector.Parser

/-!
# Errors of settings

Why settings are refused, or why no rule can be made from them.
-/

namespace ReactiveLint

inductive ConfigError
  | unreadableFile
  | invalidYaml
  | invalidJson
  | unknownRule (name : String)
  | invalidSeverity (rule value : String)
  /-- The options have not the form that the rule asks for. -/
  | invalidOptions (rule : String)
  | takesNoOptions (rule : String)
  /-- A pattern, with the text that a rule adds to it, cannot be read. -/
  | invalidPattern (rule pattern : String)
  | invalidSelector (error : SelectorError)
  | unknownFormat (extension : String)
  | tooDeep
deriving DecidableEq, Repr

/-- The text of an error.  What readers of other formats say is left out. -/
def ConfigError.message : ConfigError → String
  | unreadableFile => "IO error"
  | invalidYaml => "YAML parse error"
  | invalidJson => "JSON parse error"
  | unknownRule name => s!"Unknown rule '{name}'"
  | invalidSeverity rule value =>
      s!"Invalid severity '{value}' for rule '{rule}' (expected off, info, warn or error)"
  | invalidOptions rule => s!"Invalid options for rule '{rule}'"
  | takesNoOptions rule => s!"Invalid options for rule '{rule}': rule takes no options"
  | invalidPattern rule pattern =>
      s!"Invalid regex '{pattern}' in options for rule '{rule}'"
  | invalidSelector error => s!"Invalid selector: {error.message}"
  | unknownFormat extension =>
      s!"Invalid configuration: Unknown config file format: {extension}"
  | tooDeep => "Invalid configuration: Maximum config inheritance depth exceeded"

end ReactiveLint
