import ReactiveLint.Text.Blank

/-!
# Message templates

A template is a text with placeholders: a name between two opening and two closing
braces, with blanks around the name if need be.  Filling a template puts values in
the place of the names that have one and leaves all else as it is written.
-/

namespace ReactiveLint.Template

/-- The placeholder of a name, as it is written. -/
def hole (name : String) : String := "\x7b\x7b" ++ name ++ "\x7d\x7d"

def isNameStart (c : Char) : Bool := c.isAlpha || c == '_'

def isNameChar (c : Char) : Bool := c.isAlphanum || c == '_'

/-- The name of a placeholder that starts here, and the rest of the text. -/
def readPlaceholder? : List Char → Option (List Char × List Char)
  | '{' :: '{' :: cs =>
      let cs := Text.trimStart cs
      if (cs.head?.map isNameStart).getD false then
        match Text.trimStart (cs.dropWhile isNameChar) with
        | '}' :: '}' :: rest => some (cs.takeWhile isNameChar, rest)
        | _ => none
      else none
  | _ => none

/-- The value of the first entry of a name. -/
def value? (data : List (String × String)) (name : List Char) : Option (List Char) :=
  (data.lookup (String.ofList name)).map String.toList

/-- Fills the placeholders of a text.  Each step passes at least one character, so
the length of the text is enough fuel. -/
def fillWithin (data : List (String × String)) : Nat → List Char → List Char
  | 0, cs => cs
  | _ + 1, [] => []
  | fuel + 1, c :: cs =>
      match readPlaceholder? (c :: cs) with
      | some (name, rest) =>
          let written := (c :: cs).take ((c :: cs).length - rest.length)
          (value? data name).getD written ++ fillWithin data fuel rest
      | none => c :: fillWithin data fuel cs

end ReactiveLint.Template

namespace ReactiveLint

/-- A template with the values of its placeholders. -/
def fillTemplate (template : String) (data : List (String × String)) : String :=
  let cs := template.toList
  String.ofList (Template.fillWithin data cs.length cs)

end ReactiveLint
