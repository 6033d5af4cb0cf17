import ReactiveLint.Rules.Options

/-!
# Rules about imports

What may be imported from the library, from where, and under which name.
-/

namespace ReactiveLint.Rules

open Template (hole)

/-- Reports an import specifier whose name is banned. -/
def checkBan (bans : BanList) : Check := fun file specifier =>
  Option.toList do
    let imported ← file.tree.child? specifier "imported"
    let name ← file.tree.name? imported
    let explanation ← bans.explanation? name
    let report := file.tree.report "forbidden" imported
    return (report.withEntry "name" name).withEntry "explanation" explanation

def banMessage (subject : String) : List (String × String) :=
  [("forbidden", s!"RxJS {subject} is banned: " ++ hole "name" ++ hole "explanation" ++ ".")]

def banObservablesInfo : RuleInfo where
  name := "ban-observables"
  description := "Forbids the use of banned observables."
  category := .restriction
  messages := banMessage "observable"
  options :=
    [⟨"<name>", .patternMap, "\x7b\x7d",
      "Observable name patterns mapped to true or an explanation"⟩]

def banObservables : BuiltInRule :=
  .ofSettings banObservablesInfo (BanList.read "ban-observables") fun bans =>
    [("ImportDeclaration[source.value='rxjs'] > ImportSpecifier", checkBan bans)]

def banOperatorsInfo : RuleInfo where
  name := "ban-operators"
  description := "Forbids the use of banned operators."
  category := .restriction
  messages := banMessage "operator"
  options :=
    [⟨"<name>", .patternMap, "\x7b\x7d",
      "Operator name patterns mapped to true or an explanation"⟩]

def banOperators : BuiltInRule :=
  .ofSettings banOperatorsInfo (BanList.read "ban-operators") fun bans =>
    [(r"ImportDeclaration[source.value=/^rxjs(\/operators)?$/] > ImportSpecifier",
      checkBan bans)]

/-! ## The alias of `of` -/

def justInfo : RuleInfo where
  name := "just"
  description := "Enforces the use of a `just` alias for `of`."
  category := .style
  fixable := true
  messages := [("forbidden", "Use just alias.")]

/-- Reports a node together with the text that takes its place. -/
def renameTo (tree : Tree) (text : String) (node : NodeId) : Report :=
  (tree.report "forbidden" node).fixedBy [tree.replaceNode node text]

/-- Renames an import that has no alias, and all its uses. -/
def checkAlias : Handler Unit := fun file _ _ specifier =>
  let tree := file.tree
  match tree.child? specifier "imported", tree.child? specifier "local" with
  | some imported, some localId =>
      if tree.span localId = tree.span imported then
        let uses := file.scopes.references localId
        let known := uses.takeWhile tree.contains
        { state := ()
          reports := renameTo tree "of as just" specifier :: known.map (renameTo tree "just")
          fault := if known.length < uses.length then some .foreignNode else none }
      else { state := () }
  | _, _ => { state := () }

def just : BuiltInRule :=
  .ofHandlers justInfo Unit ()
    [("ImportDeclaration[source.value='rxjs'] > ImportSpecifier[imported.name='of']",
      checkAlias)]

/-! ## The import of the compiler plugin -/

def pluginModule : String := "babel-plugin-rxjs-tools/macro"

/-- Where a program first uses the library, and whether it imports the plugin. -/
structure PluginUse where
  firstUse : Option NodeId := none
  isImported : Bool := false

def pluginInfo : RuleInfo where
  name := "macro"
  description := "Enforces the use of the RxJS Tools Babel macro."
  category := .style
  stability := .deprecated
  fixable := true
  messages := [("macro", "Use the RxJS Tools Babel macro.")]

def recordUse : Handler PluginUse := fun _ _ found node =>
  { state := { found with firstUse := found.firstUse.or (some node) } }

def recordPlugin : Handler PluginUse := fun _ _ found _ =>
  { state := { found with isImported := true } }

/-- Reports the first use when a program ends without the import. -/
def checkPlugin : Handler PluginUse := fun file _ found program =>
  match found.firstUse, found.isImported with
  | some firstUse, false =>
      let line := s!"import \"{pluginModule}\";\n"
      { state := found
        reports :=
          [(file.tree.report "macro" firstUse).fixedBy [file.tree.insertBefore program line]] }
  | _, _ => { state := found }

def pluginImport : BuiltInRule :=
  .ofHandlers pluginInfo PluginUse {}
    [ ("CallExpression[callee.property.name=/^(pipe|subscribe)$/]", recordUse)
    , (r"ImportDeclaration[source.value=/^rxjs(\/|$)/]", recordUse)
    , (s!"ImportDeclaration[source.value='{pluginModule}']", recordPlugin)
    , ("Program:exit", checkPlugin) ]

/-! ## Locations -/

/-- Reports every node that a selector finds. -/
def checkAny : Check := fun file node => [file.tree.report "forbidden" node]

def noCompatInfo : RuleInfo where
  name := "no-compat"
  description := "Forbids importation from locations that depend upon 'rxjs-compat'."
  category := .restriction
  messages := [("forbidden", "'rxjs-compat'-dependent import locations are forbidden.")]

def noCompat : BuiltInRule :=
  .ofChecks noCompatInfo
    [(r"ImportDeclaration[source.value=/^rxjs\//]" ++
        r":not(ImportDeclaration[source.value=" ++
        r"/^rxjs\/(ajax|fetch|operators|testing|webSocket)$/])",
      checkAny)]

def noIndexInfo : RuleInfo where
  name := "no-index"
  description := "Forbids the importation from index modules."
  category := .restriction
  messages := [("forbidden", "RxJS imports from index modules are forbidden.")]

def noIndex : BuiltInRule :=
  .ofChecks noIndexInfo
    [(r"ImportDeclaration > Literal.source[value=/^rxjs(?:\/\w+)?\/index/]", checkAny)]

def noInternalInfo : RuleInfo where
  name := "no-internal"
  description := "Forbids the importation of internals."
  category := .correctness
  fixable := true
  hasSuggestions := true
  messages :=
    [ ("forbidden", "RxJS imports from internal are forbidden.")
    , ("suggest", "Import from a non-internal location.") ]

/-- Where the exports of an internal location are public.  The case of the letters
of the last of them does not count. -/
def publicLocation (path : List Char) : String :=
  let within := fun (location : String) => location.toList.isPrefixOf path
  if within "rxjs/internal/ajax" then "rxjs/ajax"
  else if within "rxjs/internal/operators" then "rxjs/operators"
  else if within "rxjs/internal/testing" then "rxjs/testing"
  else if "rxjs/internal/websocket".toList.isPrefixOf (path.map Char.toLower) then
    "rxjs/webSocket"
  else "rxjs"

/-- The public location for a quoted internal one, in the same quotes. -/
def publicLiteral? (raw : String) : Option String :=
  match Text.trimStart raw.toList with
  | quote :: path =>
      if quote = '\'' ∨ quote = '"' then
        some (quote.toString ++ publicLocation path ++ quote.toString)
      else none
  | [] => none

def checkInternal : Check := fun file source =>
  let report := file.tree.report "forbidden" source
  match publicLiteral? (file.tree.text source) with
  | some text =>
      let edits := [file.tree.replaceNode source text]
      [(report.fixedBy edits).suggesting "suggest" edits]
  | none => [report]

def noInternal : BuiltInRule :=
  .ofChecks noInternalInfo
    [(r"ImportDeclaration > Literal.source[value=/^rxjs\/internal/]", checkInternal)]

end ReactiveLint.Rules
