import ReactiveLint.Pattern.CharSet

/-!
# Patterns

A pattern describes pieces of a text.  `Pattern.Matches` is its meaning: the
spans of character positions that it describes.  `Pattern.isMatch` decides
whether some piece of a text is described, by carrying the set of reachable end
positions through the pattern.
-/

namespace ReactiveLint

/-- A condition on a position between two characters. -/
inductive Anchor
  | textStart
  | textEnd
  | lineStart
  | lineEnd
  | terminatorStart
  | terminatorEnd
  | wordBoundary (ascii : Bool)
  | notWordBoundary (ascii : Bool)
  | wordStart (ascii : Bool)
  | wordEnd (ascii : Bool)
  | wordStartHalf (ascii : Bool)
  | wordEndHalf (ascii : Bool)
deriving DecidableEq, Repr

inductive Pattern
  | empty
  | one (set : CharSet)
  | anchor (condition : Anchor)
  | seq (first second : Pattern)
  | either (left right : Pattern)
  /-- At least `least` and at most `most` pieces in a row, or `least` where that is more. -/
  | repeated (body : Pattern) (least : Nat) (most : Option Nat)
deriving DecidableEq, Repr

namespace Anchor

def isWord (ascii : Bool) (c : Char) : Bool :=
  if ascii then c.isAlphanum || c == '_' else Text.isWordChar c

/-- Whether the character just before a position is a word character. -/
def wordBefore (ascii : Bool) (text : Array Char) (position : Nat) : Bool :=
  position != 0 && (text[position - 1]?.map (isWord ascii)).getD false

def wordAfter (ascii : Bool) (text : Array Char) (position : Nat) : Bool :=
  (text[position]?.map (isWord ascii)).getD false

def holds (text : Array Char) (position : Nat) : Anchor → Bool
  | textStart => position == 0
  | textEnd => position == text.size
  | lineStart => position == 0 || text[position - 1]? == some '\n'
  | lineEnd => position == text.size || text[position]? == some '\n'
  | terminatorStart =>
      position == 0 || text[position - 1]? == some '\n' ||
        (text[position - 1]? == some '\r' && text[position]? != some '\n')
  | terminatorEnd =>
      position == text.size || text[position]? == some '\r' ||
        (text[position]? == some '\n' &&
          !(position != 0 && text[position - 1]? == some '\r'))
  | wordBoundary ascii => wordBefore ascii text position != wordAfter ascii text position
  | notWordBoundary ascii => wordBefore ascii text position == wordAfter ascii text position
  | wordStart ascii => !wordBefore ascii text position && wordAfter ascii text position
  | wordEnd ascii => wordBefore ascii text position && !wordAfter ascii text position
  | wordStartHalf ascii => !wordBefore ascii text position
  | wordEndHalf ascii => !wordAfter ascii text position

end Anchor

namespace Pattern

/-- The pieces of a text that a pattern describes, by their ends. -/
inductive Matches (text : Array Char) : Pattern → Nat → Nat → Prop
  | empty (i : Nat) (hbound : i ≤ text.size) : Matches text .empty i i
  | one {set : CharSet} {i : Nat} {c : Char} (hchar : text[i]? = some c)
      (hset : set.holds c = true) : Matches text (.one set) i (i + 1)
  | anchor {condition : Anchor} {i : Nat} (hbound : i ≤ text.size)
      (hholds : condition.holds text i = true) : Matches text (.anchor condition) i i
  | seq {first second : Pattern} {i j k : Nat} (hfirst : Matches text first i j)
      (hsecond : Matches text second j k) : Matches text (.seq first second) i k
  | left {left right : Pattern} {i j : Nat} (hleft : Matches text left i j) :
      Matches text (.either left right) i j
  | right {left right : Pattern} {i j : Nat} (hright : Matches text right i j) :
      Matches text (.either left right) i j
  | stop {body : Pattern} {most : Option Nat} {i : Nat} (hbound : i ≤ text.size) :
      Matches text (.repeated body 0 most) i i
  | again {body : Pattern} {least : Nat} {most : Option Nat} {i j k : Nat}
      (hmost : 0 < least ∨ most ≠ some 0) (hbody : Matches text body i j)
      (hrest : Matches text (.repeated body (least - 1) (most.map (· - 1))) j k) :
      Matches text (.repeated body least most) i k

/-- Positions of two sets without repetition. -/
def mergePositions (left right : List Nat) : List Nat :=
  left ++ right.filter (!left.contains ·)

/-- All positions reached by at most `rounds` further steps. -/
def reachable (step : List Nat → List Nat) : Nat → List Nat → List Nat → List Nat
  | 0, reached, _ => reached
  | rounds + 1, reached, frontier =>
      let fresh := (step frontier).filter (!reached.contains ·)
      if fresh.isEmpty then reached
      else reachable step rounds (reached ++ fresh) fresh

/-- All positions reached by exactly `count` steps. -/
def iterate (step : List Nat → List Nat) : Nat → List Nat → List Nat
  | 0, positions => positions
  | count + 1, positions =>
      if positions.isEmpty then [] else iterate step count (step positions)

/-- The ends of the pieces that start at the given positions. -/
def ends (text : Array Char) : Pattern → List Nat → List Nat
  | empty, starts => starts
  | one set, starts =>
      starts.filterMap fun i =>
        match text[i]? with
        | some c => if set.holds c then some (i + 1) else none
        | none => none
  | .anchor condition, starts => starts.filter fun i => condition.holds text i
  | seq first second, starts => second.ends text (first.ends text starts)
  | either left right, starts =>
      mergePositions (left.ends text starts) (right.ends text starts)
  | repeated body least most, starts =>
      let required := iterate (body.ends text) least starts
      let rounds := match most with
        | some most => most - least
        | none => text.size + 1
      reachable (body.ends text) rounds required required

/-- Whether some piece of a text is described. -/
def isMatch (pattern : Pattern) (text : String) : Bool :=
  let chars := text.toList.toArray
  !(pattern.ends chars (List.range (chars.size + 1))).isEmpty

def star (body : Pattern) : Pattern := repeated body 0 none

/-- The steps that a pattern asks for when its repetitions are written out. -/
def size : Pattern → Nat
  | empty => 1
  | one _ => 1
  | .anchor _ => 1
  | seq first second => first.size + second.size
  | either left right => left.size + right.size + 1
  | repeated body least most => (max 1 (max least (most.getD 0))) * body.size + 1

end Pattern

end ReactiveLint
