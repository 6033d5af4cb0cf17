import ReactiveLint.Proofs.Directive.Lookup
import ReactiveLint.Proofs.Directive.Splitting

/-!
# What a directive says

A comment that names rules and gives a reason is read as the directive that it states.  The
reason may hold anything, except that behind a colon it must not hold a `--`: this is looked
for first, and all that stands before it is taken for names.
-/

namespace ReactiveLint

open Text (isBlank trim trimStart trimEnd)

namespace Directive

/-! ## The parts of a comment -/

/-- Characters, like letters and digits, that neither end a name nor mean anything else in a
directive. -/
def IsNameChar (c : Char) : Prop := isBlank c = false ∧ c ∉ [',', ':', '*', '-']

/-- Name characters and hyphens, but no two hyphens in a row. -/
structure IsRuleName (name : String) : Prop where
  ne_nil : name.toList ≠ []
  chars : ∀ c ∈ name.toList, IsNameChar c ∨ c = '-'
  single : ¬ ['-', '-'] <:+: name.toList

instance (c : Char) : Decidable (IsNameChar c) := inferInstanceAs (Decidable (_ ∧ _))

instance (name : String) : Decidable (IsRuleName name) :=
  decidable_of_iff (name.toList ≠ [] ∧
      (name.toList.all fun c => decide (IsNameChar c ∨ c = '-')) = true ∧
      ¬ ['-', '-'] <:+: name.toList)
    ⟨fun ⟨hne, hchars, hsingle⟩ => ⟨hne, Text.forall_mem_of_all hchars, hsingle⟩,
      fun ⟨hne, hchars, hsingle⟩ =>
        ⟨hne, List.all_eq_true.mpr fun c hc => decide_eq_true (hchars c hc), hsingle⟩⟩

/-- What stands between the names of rules and a reason. -/
inductive ReasonSeparator
  | dashes
  | colon
deriving DecidableEq, Repr

def ReasonSeparator.text : ReasonSeparator → List Char
  | dashes => ['-', '-']
  | colon => [':']

end Directive

def DirectiveScope.keyword : DirectiveScope → String
  | nextLine => "disable-next-line"
  | line => "disable-line"
  | file => "disable"

/-- A line comment that turns rules off and gives a reason. -/
structure DirectiveComment where
  scope : DirectiveScope
  names : List String
  separator : Directive.ReasonSeparator
  reason : List Char
  isRuleName : ∀ name ∈ names, Directive.IsRuleName name
  feed_not_mem : '\n' ∉ reason
  not_closed : ¬ ['*', '/'] <:+: reason

namespace Directive

/-- Names as they stand in a comment, with a blank at each end. -/
def written : List String → List Char
  | [] => [' ']
  | [name] => ' ' :: name.toList ++ [' ']
  | name :: names => ' ' :: name.toList ++ ',' :: written names

end Directive

namespace DirectiveComment

/-- What follows the keyword. -/
def body (comment : DirectiveComment) : List Char :=
  Directive.written comment.names ++ (comment.separator.text ++ ' ' :: comment.reason)

def text (comment : DirectiveComment) : List Char :=
  '/' :: '/' :: ' ' :: ("rxlint-".toList ++ (comment.scope.keyword.toList ++ comment.body))

/-- The directive that a comment states on a line. -/
def directive (comment : DirectiveComment) (line : Nat) : Directive where
  scope := comment.scope
  line
  rules := comment.names
  reason := if (trim comment.reason).isEmpty then none
    else some (String.ofList (trim comment.reason))

/-- A comment is all that a source has of directives: the texts before it and after its line
hold none. -/
structure IsAlone (comment : DirectiveComment) (source : String) (before after : List Char) :
    Prop where
  source_eq : source.toList = before ++ (comment.text ++ after)
  before_empty : (Directives.parse (String.ofList before)).isEmpty = true
  after_empty : (Directives.parse (String.ofList after)).isEmpty = true
  ends_line : ∀ c ∈ after.head?, c = '\n'

/-- A source has the directive that a comment states on a line, and no other one.  So where
the comment applies, it turns off the rules that it names. -/
structure IsDecoded (comment : DirectiveComment) (source : String) (line : Nat) : Prop where
  list : (Directives.parse source).list = [comment.directive line]
  isDisabled : ∀ rule place, (Directives.parse source).isDisabled rule place = true ↔
    (comment.directive line).covers place = true ∧ (comment.directive line).names rule = true

end DirectiveComment

namespace Directive

variable {name : String} {names : List String} {c : Char}

/-! ## Names -/

/-- Letters and digits of ASCII are visible. -/
theorem isVisible_of_isAlphanum (hc : c.isAlphanum = true) : Text.IsVisible c := by
  have hbetween : ∀ low high : Char, 33 ≤ low.toNat → high.toNat ≤ 126 → low.val ≤ c.val →
      c.val ≤ high.val → Text.IsVisible c := fun low high hlow hhigh hle hge =>
    ⟨Nat.le_trans hlow (UInt32.le_iff_toNat_le.mp hle),
      Nat.le_trans (UInt32.le_iff_toNat_le.mp hge) hhigh⟩
  rcases Bool.or_eq_true_iff.mp hc with halpha | hdigit
  · rcases Bool.or_eq_true_iff.mp halpha with hupper | hlower
    · obtain ⟨hle, hge⟩ := of_decide_eq_true hupper
      exact hbetween 'A' 'Z' (by decide) (by decide) hle hge
    · obtain ⟨hle, hge⟩ := Bool.and_eq_true_iff.mp hlower
      exact hbetween 'a' 'z' (by decide) (by decide) (of_decide_eq_true hle) (of_decide_eq_true hge)
  · obtain ⟨hle, hge⟩ := Bool.and_eq_true_iff.mp hdigit
    exact hbetween '0' '9' (by decide) (by decide) (of_decide_eq_true hle) (of_decide_eq_true hge)

theorem isNameChar_of_isAlphanum (hc : c.isAlphanum = true) : IsNameChar c := by
  refine ⟨(isVisible_of_isAlphanum hc).isBlank_eq_false, fun hmem => ?_⟩
  have hmarks : ∀ mark ∈ [',', ':', '*', '-'], mark.isAlphanum = false :=
    Text.forall_mem_of_all (by decide)
  rw [hmarks c hmem] at hc
  cases hc

theorem isRuleName_of_isAlphanum (hne : name.toList ≠ [])
    (hchars : ∀ c ∈ name.toList, c.isAlphanum = true ∨ c = '-')
    (hsingle : ¬ ['-', '-'] <:+: name.toList) : IsRuleName name where
  ne_nil := hne
  chars c hc := (hchars c hc).imp_left isNameChar_of_isAlphanum
  single := hsingle

namespace IsRuleName

theorem isBlank_eq_false (hname : IsRuleName name) : ∀ c ∈ name.toList, isBlank c = false := by
  intro c hc
  rcases hname.chars c hc with hchar | rfl
  · exact hchar.1
  · exact Text.IsVisible.isBlank_eq_false (by decide)

theorem not_mem (hname : IsRuleName name) (hc : c ∈ [',', ':', '*']) : c ∉ name.toList := by
  intro hmem
  rcases hname.chars c hmem with hchar | rfl
  · exact hchar.2 (List.mem_append_left ['-'] hc)
  · revert hc
    decide

/-- Blanks around a name do not count. -/
theorem trim_space (hname : IsRuleName name) : trim (' ' :: name.toList) = name.toList := by
  have haround := Text.trim_around hname.ne_nil hname.isBlank_eq_false [' '] []
  rw [List.append_nil] at haround
  exact haround.trans (List.append_nil _)

theorem trim_spaces (hname : IsRuleName name) :
    trim (' ' :: name.toList ++ [' ']) = name.toList :=
  (Text.trim_append_blanks (List.forall_mem_singleton.mpr rfl) _).trans hname.trim_space

end IsRuleName

section Written

variable (hnames : ∀ name ∈ names, IsRuleName name)

include hnames

/-- The names in a comment are the names that were put down. -/
theorem namesIn_written : namesIn (written names) = names.map String.toList := by
  induction names using written.induct with
  | case1 => rfl
  | case2 name =>
      have hname := List.forall_mem_singleton.mp hnames
      have hpiece : ',' ∉ ' ' :: name.toList ++ [' '] := by
        simp [hname.not_mem (c := ',') (by decide)]
      rw [written, namesIn_piece hpiece (hname.trim_spaces.symm ▸ hname.ne_nil), hname.trim_spaces,
        List.map_singleton]
  | case3 name names hne ih =>
      obtain ⟨hname, hnames⟩ := List.forall_mem_cons.mp hnames
      have hpiece : ',' ∉ ' ' :: name.toList := by
        simp [hname.not_mem (c := ',') (by decide)]
      rw [written, namesIn_append hpiece (hname.trim_space.symm ▸ hname.ne_nil), hname.trim_space,
        ih hnames, List.map_cons]
      exact hne

theorem not_mem_written (hc : c ∈ [':', '*', '\n']) : c ∉ written names := by
  have hapart : c ≠ ' ' ∧ c ≠ ',' ∧ (c ∈ [',', ':', '*'] ∨ isBlank c = true) := by
    simp only [List.mem_cons, List.not_mem_nil, or_false] at hc
    rcases hc with rfl | rfl | rfl <;> decide
  have hname : ∀ name ∈ names, c ∉ name.toList := by
    intro name hmem hin
    rcases hapart.2.2 with hmark | hblank
    · exact (hnames name hmem).not_mem hmark hin
    · exact Bool.false_ne_true (((hnames name hmem).isBlank_eq_false c hin).symm.trans hblank)
  clear hnames
  induction names using written.induct with
  | case1 => simp [written, hapart.1]
  | case2 name =>
      have hself := List.forall_mem_singleton.mp hname
      simp [written, hapart.1, hself]
  | case3 name names hne ih =>
      obtain ⟨hself, hrest⟩ := List.forall_mem_cons.mp hname
      rw [written]
      · simp [hapart.1, hapart.2.1, hself, ih hrest]
      · exact hne

/-- No two hyphens in a row reach into the names. -/
theorem dashes_infix_written_append_iff (after : List Char) :
    ['-', '-'] <:+: written names ++ after ↔ ['-', '-'] <:+: after := by
  have hspace : ∀ cs : List Char, ['-', '-'] <:+: ' ' :: cs ↔ ['-', '-'] <:+: cs := fun _ =>
    infix_cons_iff_of_not_mem (by decide) (by decide)
  induction names using written.induct with
  | case1 => exact hspace after
  | case2 name =>
      have hname := List.forall_mem_singleton.mp hnames
      rw [written, List.cons_append, List.cons_append, hspace, List.append_assoc,
        List.singleton_append, infix_append_cons_iff (by decide), or_iff_right hname.single]
  | case3 name names hne ih =>
      obtain ⟨hname, hnames⟩ := List.forall_mem_cons.mp hnames
      rw [written, List.cons_append, List.cons_append, hspace, List.append_assoc, List.cons_append,
        infix_append_cons_iff (by decide), or_iff_right hname.single]
      · exact ih hnames
      · exact hne

theorem dashes_infix_trimStart_append_iff (after : List Char) :
    ['-', '-'] <:+: trimStart (written names) ++ after ↔ ['-', '-'] <:+: after := by
  constructor
  · intro hfound
    obtain ⟨blanks, hblanks⟩ := List.dropWhile_suffix (l := written names) isBlank
    rw [← dashes_infix_written_append_iff hnames, ← hblanks, List.append_assoc]
    exact hfound.trans (List.suffix_append _ _).isInfix
  · exact fun hfound => hfound.trans (List.suffix_append _ _).isInfix

end Written

end Directive

namespace DirectiveComment

open Directive

variable (comment : DirectiveComment)

/-! ## Names and reason -/

/-- The part of a comment before the separator. -/
def front : List Char := trimStart (written comment.names)

/-- The part of a comment behind the separator. -/
def back : List Char := trimEnd (' ' :: comment.reason)

theorem trim_body : trim comment.body = comment.front ++ (comment.separator.text ++ comment.back) := by
  have hseparator : comment.separator.text ≠ [] ∧
      ∀ c ∈ comment.separator.text, isBlank c = false := by
    cases comment.separator <;> exact ⟨by decide, Text.forall_mem_of_all (by decide)⟩
  exact Text.trim_around hseparator.1 hseparator.2 _ _

theorem namesIn_front : namesIn comment.front = comment.names.map String.toList :=
  (namesIn_trimStart _).trans (namesIn_written comment.isRuleName)

theorem trim_back : trim comment.back = trim comment.reason :=
  (Text.trim_trimEnd _).trans (Text.trim_cons_of_blank (by decide) _)

theorem dashes_infix_back_iff :
    ['-', '-'] <:+: comment.back ↔ ['-', '-'] <:+: comment.reason := by
  constructor
  · intro hfound
    obtain ⟨blanks, -, hblanks⟩ := Text.exists_trimEnd (' ' :: comment.reason)
    have hreason : ['-', '-'] <:+: ' ' :: comment.reason :=
      hfound.trans (hblanks ▸ (List.prefix_append _ blanks).isInfix)
    exact (infix_cons_iff_of_not_mem (by decide) (by decide)).mp hreason
  · rintro ⟨before, after, hparts⟩
    have haround := @Text.trimEnd_around ['-', '-'] (by decide)
      (Text.forall_mem_of_all (by decide)) (' ' :: before) after
    rw [back, ← hparts, List.append_assoc, ← List.cons_append, haround]
    exact ⟨' ' :: before, trimEnd after, List.append_assoc _ _ _⟩

/-- A colon with two hyphens in a row behind it is not where the text is split. -/
def Misleads : Prop := comment.separator = .colon ∧ ['-', '-'] <:+: comment.reason

theorem splitAtFirst?_body_dashes (hseparator : comment.separator = .dashes) :
    splitAtFirst? ['-', '-'] (trim comment.body) = some (comment.front, comment.back) := by
  refine (splitAtFirst?_eq_some_iff (by simp)).mpr ⟨?_, fun hfound => ?_⟩
  · rw [trim_body, hseparator]
    rfl
  · have hlast := (dashes_infix_trimStart_append_iff comment.isRuleName _).mp hfound
    revert hlast
    decide

theorem splitAtFirst?_body_colon (hseparator : comment.separator = .colon) :
    splitAtFirst? [':'] (trim comment.body) = some (comment.front, comment.back) := by
  refine (splitAtFirst?_eq_some_iff (by simp)).mpr ⟨?_, fun hfound => ?_⟩
  · rw [trim_body, hseparator]
    rfl
  · rw [List.dropLast_singleton, List.append_nil, List.singleton_infix_iff] at hfound
    exact not_mem_written comment.isRuleName (by decide) ((List.dropWhile_suffix _).subset hfound)

/-- Behind a colon only the reason can hold dashes. -/
theorem dashes_infix_body_iff (hseparator : comment.separator = .colon) :
    ['-', '-'] <:+: trim comment.body ↔ ['-', '-'] <:+: comment.reason := by
  rw [trim_body, hseparator, front, dashes_infix_trimStart_append_iff comment.isRuleName,
    ← dashes_infix_back_iff]
  exact infix_cons_iff_of_not_mem (by decide) (by decide)

/-- The text of a comment is split where it was put together, unless it misleads. -/
theorem split_body (hplain : ¬ comment.Misleads) :
    (splitAtFirst? ['-', '-'] (trim comment.body)).or (splitAtFirst? [':'] (trim comment.body)) =
      some (comment.front, comment.back) := by
  cases hseparator : comment.separator with
  | dashes => rw [comment.splitAtFirst?_body_dashes hseparator, Option.some_or]
  | colon =>
      have hdashes : splitAtFirst? ['-', '-'] (trim comment.body) = none := by
        rw [splitAtFirst?_eq_none_iff (by simp), comment.dashes_infix_body_iff hseparator]
        exact fun hfound => hplain ⟨hseparator, hfound⟩
      rw [hdashes, Option.none_or, comment.splitAtFirst?_body_colon hseparator]

theorem splitReason_body (hplain : ¬ comment.Misleads) :
    splitReason comment.body = (comment.names, (comment.directive 0).reason) := by
  rw [splitReason_eq (comment.split_body hplain), namesIn_front, trim_back, List.map_map]
  simp [directive]

/-- A colon that misleads ends up in a name. -/
theorem exists_mem_splitReason_body (hmisleads : comment.Misleads) :
    ∃ rule ∈ (splitReason comment.body).1, ':' ∈ rule.toList := by
  obtain ⟨hcolon, hdashes⟩ := hmisleads
  -- the first dashes behind the colon are the first of the whole text
  obtain ⟨⟨before, rest⟩, hback⟩ := Option.ne_none_iff_exists'.mp
    (mt (splitAtFirst?_eq_none_iff (by simp)).mp
      (not_not_intro (comment.dashes_infix_back_iff.mpr hdashes)))
  obtain ⟨hparts, hfirst⟩ := (splitAtFirst?_eq_some_iff (by simp)).mp hback
  have hsplit : splitAtFirst? ['-', '-'] (trim comment.body) =
      some (comment.front ++ ':' :: before, rest) := by
    refine (splitAtFirst?_eq_some_iff (by simp)).mpr ⟨?_, fun hfound => ?_⟩
    · rw [trim_body, hcolon, hparts, List.append_assoc]
      rfl
    · rw [List.append_assoc, front, dashes_infix_trimStart_append_iff comment.isRuleName] at hfound
      exact hfirst ((infix_cons_iff_of_not_mem (by decide) (by decide)).mp hfound)
  have hmem : ':' ∈ comment.front ++ ':' :: before :=
    List.mem_append_right _ List.mem_cons_self
  obtain ⟨name, hname, hin⟩ := exists_mem_namesIn hmem (by decide)
    (Text.IsVisible.isBlank_eq_false (by decide))
  rw [splitReason_eq (congrArg (Option.or · _) hsplit)]
  exact ⟨String.ofList name, List.mem_map_of_mem hname, by rwa [String.toList_ofList]⟩

/-! ## Reading the comment -/

theorem feed_not_mem_body : '\n' ∉ comment.body := by
  have hnames := not_mem_written comment.isRuleName (c := '\n') (by decide)
  have hseparator : '\n' ∉ comment.separator.text := by
    cases comment.separator <;> decide
  simp [body, hnames, hseparator, comment.feed_not_mem]

theorem not_closed_body : ¬ ['*', '/'] <:+: comment.body := by
  have hnames := not_mem_written comment.isRuleName (c := '*') (by decide)
  have hseparator : '*' ∉ comment.separator.text := by
    cases comment.separator <;> decide
  rw [body, ← List.append_assoc, infix_append_cons_iff (by decide), or_iff_left comment.not_closed]
  intro hfound
  have hmem := hfound.subset List.mem_cons_self
  simp [hnames, hseparator] at hmem

theorem readKeyword?_keyword (scope : DirectiveScope) (rest : List Char) :
    readKeyword? (scope.keyword.toList ++ ' ' :: rest) = some (scope, ' ' :: rest) := by
  cases scope <;> rfl

theorem exists_body_eq : ∃ tail, comment.body = ' ' :: tail := by
  have hwritten : ∃ tail, written comment.names = ' ' :: tail := by
    match comment.names with
    | [] => exact ⟨_, rfl⟩
    | [name] => exact ⟨_, rfl⟩
    | name :: other :: names => exact ⟨_, rfl⟩
  obtain ⟨tail, hwritten⟩ := hwritten
  exact ⟨tail ++ _, by rw [body, hwritten, List.cons_append]⟩

variable {after : List Char}

/-- A comment at the end of its line is read as it was put down. -/
theorem readHere?_text (hline : ∀ c ∈ after.head?, c = '\n') :
    readHere? (comment.text ++ after) = some (comment.scope, comment.body, after.tail) := by
  obtain ⟨tail, hbody⟩ := comment.exists_body_eq
  have hkeyword := readKeyword?_keyword comment.scope (tail ++ after)
  have hline := readBody_line comment.feed_not_mem_body comment.not_closed_body hline
  rw [← List.cons_append, ← hbody] at hkeyword
  have hopened : readOpening? (comment.text ++ after) =
      some ("rxlint-".toList ++ (comment.scope.keyword.toList ++ (comment.body ++ after))) := by
    have hmarker : "rxlint-".toList = 'r' :: "xlint-".toList := by decide
    rw [text, hmarker]
    simp only [List.cons_append, List.append_assoc]
    rfl
  exact readHere?_eq_some_iff.mpr
    ⟨_, _, _, hopened, after?_eq_some_iff.mpr rfl, hkeyword, hline⟩

variable {source : String} {before : List Char}

/-- The directives of a source in which a comment is alone. -/
theorem list_parse (halone : comment.IsAlone source before after) :
    (Directives.parse source).list = [⟨comment.scope, 1 + newlines before,
      (splitReason comment.body).1, (splitReason comment.body).2⟩] := by
  have hhere := comment.readHere?_text halone.ends_line
  have hbefore : ∀ here, here ≠ [] → here <:+ before →
      readHere? (here ++ (comment.text ++ after)) = none := by
    intro here hne hsuffix
    have hnone := (Directives.isEmpty_parse_iff _).mp halone.before_empty here
      (by rwa [String.toList_ofList])
    exact readHere?_append_slashes hne hnone
  have hafter : ∀ here, here <:+ after.tail → readHere? here = none := by
    intro here hsuffix
    refine (Directives.isEmpty_parse_iff _).mp halone.after_empty here ?_
    rw [String.toList_ofList]
    exact hsuffix.trans (List.tail_suffix after)
  -- the comment takes its line feed with it, so its end is not where `text` ends
  obtain ⟨passed, hne, hparts⟩ := readHere?_passes hhere
  obtain ⟨fuel, hfuel⟩ : ∃ fuel, (passed ++ after.tail).length = fuel + 1 :=
    Nat.exists_eq_add_one.mpr (List.length_pos_iff.mpr (List.append_ne_nil_of_left_ne_nil hne _))
  have hrest : after.tail.length ≤ fuel := by
    have hpos := List.length_pos_iff.mpr hne
    rw [List.length_append] at hfuel
    omega
  rw [Directives.list_parse, halone.source_eq, List.length_append, readFrom_append hbefore, hparts,
    hfuel, readFrom_of_passes (hparts ▸ hhere) hne, (readFrom_eq_nil_iff hrest).mpr hafter]

/-- A comment alone in a source is read as the directive that it states, with the names, the
line and the reason of it, unless its reason follows a colon and holds a `--`. -/
theorem isDecoded_iff (halone : comment.IsAlone source before after) :
    comment.IsDecoded source (1 + newlines before) ↔
      ¬ (comment.separator = .colon ∧ ['-', '-'] <:+: comment.reason) := by
  have hlist := comment.list_parse halone
  constructor
  · intro hdecoded hmisleads
    have hrules : (splitReason comment.body).1 = comment.names :=
      congrArg Directive.rules (List.singleton_inj.mp (hlist.symm.trans hdecoded.list))
    obtain ⟨rule, hrule, hcolon⟩ := comment.exists_mem_splitReason_body hmisleads
    exact (comment.isRuleName rule (hrules ▸ hrule)).not_mem (by decide) hcolon
  · intro hplain
    have hdirective : (Directives.parse source).list = [comment.directive (1 + newlines before)] := by
      rw [hlist, comment.splitReason_body hplain]
      rfl
    refine ⟨hdirective, fun rule place => ?_⟩
    rw [Directives.isDisabled_parse, hdirective]
    simp only [List.mem_singleton, exists_eq_left]

/-! ## A reason with dashes -/

def legacyComment (separator : ReasonSeparator) : DirectiveComment where
  scope := .line
  names := ["just", "no-internal"]
  separator
  reason := "legacy -- see #42".toList
  isRuleName := Text.forall_mem_of_all (by decide)
  feed_not_mem := by decide
  not_closed := by decide

def legacySource (separator : ReasonSeparator) : String :=
  String.ofList ("of(1); ".toList ++ (legacyComment separator).text)

theorem toList_legacySource (separator : ReasonSeparator) :
    (legacySource separator).toList = "of(1); ".toList ++ (legacyComment separator).text :=
  String.toList_ofList

theorem isAlone_legacyComment (separator : ReasonSeparator) :
    (legacyComment separator).IsAlone (legacySource separator) "of(1); ".toList [] where
  source_eq := (toList_legacySource separator).trans
    (congrArg (List.append _) (List.append_nil (legacyComment separator).text).symm)
  before_empty := by decide
  after_empty := by decide
  ends_line := by simp

theorem isDecoded_legacyComment_dashes :
    (legacyComment .dashes).IsDecoded (legacySource .dashes) 1 :=
  ((legacyComment .dashes).isDecoded_iff (isAlone_legacyComment .dashes)).mpr (by decide)

/-- A comment that states a directive can be read as another one. -/
theorem not_forall_isDecoded :
    ¬ ∀ (comment : DirectiveComment) (source : String) (before after : List Char),
      comment.IsAlone source before after → comment.IsDecoded source (1 + newlines before) := by
  intro hall
  have hlist := (hall _ _ _ _ (isAlone_legacyComment .colon)).list
  have hread : (Directives.parse (legacySource .colon)).list ≠
      [(legacyComment .colon).directive (1 + newlines "of(1); ".toList)] := by
    decide +kernel
  exact hread hlist

end DirectiveComment

end ReactiveLint
