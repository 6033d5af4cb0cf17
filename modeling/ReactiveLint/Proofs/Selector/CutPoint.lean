import ReactiveLint.Proofs.Selector.Longer

/-!
# Points of a cut

A selector that is read can be cut off anywhere.  A scanner that knows nothing of selectors but
where attribute tests begin, compare and end tells at which point the cut falls.  The readers of
attribute tests and of positions are followed from point to point here, side by side with their
readings of the text that is left.
-/

namespace ReactiveLint

namespace Selector

open Text

variable {α β : Type} {cs pre post rest left : List Char} {accepts : Char → Bool}

/-! ## Scanning -/

/-- Where a text stands behind its last character, as far as attribute tests go. -/
inductive CutPoint
  | outside
  /-- Before the name. -/
  | opened
  /-- In the name or behind it. -/
  | named
  /-- Inside of the sign `!=`. -/
  | negated
  /-- Behind `<` or `>`, which may be whole. -/
  | ordered
  /-- Before the value. -/
  | compared
  | within (mark : Char)
  /-- Behind a backslash. -/
  | escaped (mark : Char)
  /-- In a bare word, or behind a closing mark. -/
  | closing
deriving DecidableEq, Repr

namespace CutPoint

variable {start : CutPoint}

/-- The point behind a character where a value is awaited. -/
def ofValue (c : Char) : CutPoint :=
  if isBlank c then compared
  else if c = '\'' ∨ c = '"' ∨ c = '/' then within c
  else closing

def next : CutPoint → Char → CutPoint
  | outside, c => if c = '[' then opened else outside
  | opened, c => if isBlank c then opened else named
  | named, c =>
      if c = ']' then outside
      else if c = '=' then compared
      else if c = '!' then negated
      else if c = '<' ∨ c = '>' then ordered
      else named
  | negated, _ => compared
  | ordered, c => if c = '=' then compared else ofValue c
  | compared, c => ofValue c
  | within mark, c =>
      if c = '\\' then escaped mark else if c = mark then closing else within mark
  | escaped mark, _ => within mark
  | closing, c => if c = ']' then outside else closing

/-- The point behind a text. -/
def after (start : CutPoint) (cs : List Char) : CutPoint := cs.foldl next start

/-- An attribute test has a name here, but neither a bracket nor the whole of a sign behind it. -/
def lacksSign : CutPoint → Bool
  | named => true
  | negated => true
  | _ => false

@[simp] theorem after_nil (start : CutPoint) : start.after [] = start := rfl

@[simp] theorem after_cons (start : CutPoint) (c : Char) (cs : List Char) :
    start.after (c :: cs) = (start.next c).after cs := rfl

/-- The characters of a class do not move a point. -/
def Ignores (start : CutPoint) (accepts : Char → Bool) : Prop :=
  ∀ c, accepts c = true → start.next c = start

theorem Ignores.after_dropWhile (hignores : start.Ignores accepts) (cs : List Char) :
    start.after (cs.dropWhile accepts) = start.after cs := by
  induction cs with
  | nil => rfl
  | cons c cs ih =>
      rw [List.dropWhile_cons]
      split
      next hc => rw [ih, after_cons, hignores c hc]
      next => rfl

/-- A run from a character on that leads to a point where the run stays. -/
theorem after_dropWhile_cons {c : Char} (hc : accepts c = true)
    (hignores : (start.next c).Ignores accepts) (cs : List Char) :
    start.after (c :: cs) = (start.next c).after ((c :: cs).dropWhile accepts) := by
  rw [List.dropWhile_cons_of_pos hc, hignores.after_dropWhile, after_cons]

theorem outside_ignores (hopen : accepts '[' = false) : outside.Ignores accepts := by
  intro c hc
  rw [next, if_neg]
  rintro rfl
  simp [hopen] at hc

theorem closing_ignores (hclose : accepts ']' = false) : closing.Ignores accepts := by
  intro c hc
  rw [next, if_neg]
  rintro rfl
  simp [hclose] at hc

theorem opened_ignores_isBlank : opened.Ignores isBlank := fun _ hc => if_pos hc

theorem compared_ignores_isBlank : compared.Ignores isBlank := fun _ hc => if_pos hc

theorem named_next {c : Char} (hplain : c ∉ ['=', '!', '<', '>', ']']) : named.next c = named := by
  simp only [List.mem_cons, List.not_mem_nil, or_false, not_or] at hplain
  simp [next, hplain]

theorem named_ignores_isBlank : named.Ignores isBlank := by
  intro c hc
  have hsigns : ∀ sign ∈ ['=', '!', '<', '>', ']'], isBlank sign = false :=
    forall_mem_of_all (by decide)
  exact named_next fun hmem => absurd (hsigns c hmem) (by simp [hc])

theorem named_ignores_isAttributeChar : named.Ignores isAttributeChar := by
  intro c hc
  have hsigns : ∀ sign ∈ ['=', '!', '<', '>', ']'], isAttributeChar sign = false :=
    forall_mem_of_all (by decide)
  exact named_next fun hmem => absurd (hsigns c hmem) (by simp [hc])

end CutPoint

open CutPoint

/-! ## Readings of a text that is cut off -/

/-- The text ended, or what it names is not known: no character is in question. -/
def Stop.isEnd : Stop → Bool
  | .at rest => rest.isEmpty
  | afterLast => false
  | _ => true

/-- The last character of a text is blamed. -/
def Stop.BlamesLast (cs : List Char) : Stop → Prop
  | .at rest => rest.length = 1 ∧ rest <:+ cs
  | afterLast => True
  | _ => False

/-- A reading that comes to the end of its text. -/
inductive AtEnd : Reading α → Prop
  | ok (value : α) : AtEnd (.ok (value, []))
  | error {stop : Stop} (hend : stop.isEnd = true) : AtEnd (.error stop)

/-- A reading from some point that comes to the end of its text, where it blames the last character
when a sign is lacking, and none otherwise. -/
inductive Breaks (start : CutPoint) (pre : List Char) (cut : Reading α) : Prop
  | atEnd (hcut : AtEnd cut) (hsign : (start.after pre).lacksSign = false)
  | blamed {stop : Stop} (hcut : cut = .error stop) (hblames : stop.BlamesLast pre)
      (hsign : (start.after pre).lacksSign = true)

/-- Of a text that reads as a value up to a rest, all but `post` is left.  Then either the value is
read from that as well and leads from one point to another, or the reading comes to the end. -/
inductive IsCut (start final : CutPoint) (pre post : List Char) (value : α) (rest : List Char) :
    Reading α → Prop
  | whole {left : List Char} (hrest : rest = left ++ post) (hleft : left <:+ pre)
      (hafter : start.after pre = final.after left) :
      IsCut start final pre post value rest (.ok (value, left))
  | broken {cut : Reading α} (hbreaks : Breaks start pre cut) :
      IsCut start final pre post value rest cut

section Chain

variable {start middle final : CutPoint} {value : α} {result : β} {after : List Char}
  {cut : Reading α}

theorem AtEnd.at_nil : AtEnd (.error (.at []) : Reading α) := .error rfl

theorem AtEnd.bind {next : α × List Char → Reading β} (hcut : AtEnd cut)
    (hnext : ∀ value, AtEnd (next (value, []))) : AtEnd (cut.bind next) := by
  cases hcut with
  | ok value => exact hnext value
  | error hend => exact .error hend

theorem AtEnd.map (hcut : AtEnd cut) (form : α → β) :
    AtEnd (cut.map fun found => (form found.1, found.2)) := by
  cases hcut with
  | ok value => exact .ok (form value)
  | error hend => exact .error hend

theorem Stop.BlamesLast.behind {stop : Stop} (hblames : stop.BlamesLast left)
    (hleft : left <:+ pre) : stop.BlamesLast pre := by
  cases stop with
  | «at» rest => exact ⟨hblames.1, hblames.2.trans hleft⟩
  | afterLast => trivial
  | _ => exact hblames.elim

theorem Breaks.behind (hbreaks : Breaks middle left cut) (hleft : left <:+ pre)
    (hafter : start.after pre = middle.after left) : Breaks start pre cut := by
  cases hbreaks with
  | atEnd hcut hsign => exact .atEnd hcut (hafter ▸ hsign)
  | blamed hcut hblames hsign => exact .blamed hcut (hblames.behind hleft) (hafter ▸ hsign)

theorem Breaks.bind {next : α × List Char → Reading β} (hbreaks : Breaks start pre cut)
    (hnext : ∀ value, AtEnd (next (value, []))) : Breaks start pre (cut.bind next) := by
  cases hbreaks with
  | atEnd hcut hsign => exact .atEnd (hcut.bind hnext) hsign
  | blamed hcut hblames hsign =>
      subst hcut
      exact .blamed rfl hblames hsign

/-- All that is left does not move the point, and the reading comes to the end. -/
theorem CutPoint.Ignores.breaks (hignores : start.Ignores accepts)
    (hsign : start.lacksSign = false) (hrun : pre.dropWhile accepts = []) (hcut : AtEnd cut) :
    Breaks start pre cut := by
  refine .atEnd hcut ?_
  rwa [← hignores.after_dropWhile, hrun, after_nil]

theorem IsCut.behind (hcut : IsCut middle final left post value rest cut) (hleft : left <:+ pre)
    (hafter : start.after pre = middle.after left) : IsCut start final pre post value rest cut := by
  cases hcut with
  | whole hrest hsuffix hfinal => exact .whole hrest (hsuffix.trans hleft) (hafter.trans hfinal)
  | broken hbreaks => exact .broken (hbreaks.behind hleft hafter)

theorem IsCut.cons {c : Char} (hcut : IsCut (start.next c) final pre post value rest cut) :
    IsCut start final (c :: pre) post value rest cut :=
  hcut.behind (List.suffix_cons c pre) rfl

/-- One reader after the other. -/
theorem IsCut.bind {next : α × List Char → Reading β}
    (hcut : IsCut start middle pre post value after cut)
    (hnil : ∀ value, AtEnd (next (value, [])))
    (hnext : ∀ left, after = left ++ post → left <:+ pre →
      IsCut middle final left post result rest (next (value, left))) :
    IsCut start final pre post result rest (cut.bind next) := by
  cases hcut with
  | whole hrest hleft hafter => exact (hnext _ hrest hleft).behind hleft hafter
  | broken hbreaks => exact .broken (hbreaks.bind hnil)

theorem IsCut.map (hcut : IsCut start final pre post value rest cut) (form : α → β) :
    IsCut start final pre post (form value) rest
      (cut.map fun found => (form found.1, found.2)) := by
  cases hcut with
  | whole hrest hleft hafter => exact .whole hrest hleft hafter
  | broken hbreaks =>
      cases hbreaks with
      | atEnd hcut hsign => exact .broken (.atEnd (hcut.map form) hsign)
      | blamed hcut hblames hsign =>
          subst hcut
          exact .broken (.blamed rfl hblames hsign)

/-- A reader behind a run of characters that do not move the point. -/
theorem IsCut.dropWhile (reader : List Char → Reading α) (hignores : start.Ignores accepts)
    (hnil : Breaks start [] (reader []))
    (hne : pre.dropWhile accepts ≠ [] →
      IsCut start final (pre.dropWhile accepts) post value rest (reader (pre.dropWhile accepts))) :
    IsCut start final pre post value rest (reader (pre.dropWhile accepts)) := by
  have hafter := (hignores.after_dropWhile pre).symm
  by_cases hdrop : pre.dropWhile accepts = []
  · rw [hdrop] at hafter ⊢
    exact .broken (hnil.behind (List.nil_suffix) hafter)
  · exact (hne hdrop).behind (List.dropWhile_suffix accepts) hafter

/-- A character that must come next. -/
theorem isCut_expect {expected : Char} (hsign : start.lacksSign = false)
    (hread : (expect expected (pre ++ post)).map (fun cs => (value, cs)) = .ok (value, rest)) :
    IsCut start (start.next expected) pre post value rest
      ((expect expected pre).map fun cs => (value, cs)) := by
  obtain ⟨_, hnext, heq⟩ := map_eq_ok_iff.mp hread
  cases heq
  have hcons := expect_eq_ok_iff.mp hnext
  cases pre with
  | nil => exact .broken (.atEnd .at_nil hsign)
  | cons c pre =>
      obtain ⟨rfl, hrest⟩ := List.cons.inj hcons
      rw [expect_self]
      exact .whole hrest.symm (List.suffix_cons c pre) rfl

theorem isCut_trim_expect {expected : Char} (hignores : start.Ignores isBlank)
    (hsign : start.lacksSign = false)
    (hread : (expect expected (trimStart (pre ++ post))).map (fun cs => (value, cs)) =
      .ok (value, rest)) :
    IsCut start (start.next expected) pre post value rest
      ((expect expected (trimStart pre)).map fun cs => (value, cs)) := by
  refine .dropWhile (fun cs => (expect expected cs).map fun cs => (value, cs)) hignores
    (.atEnd .at_nil hsign) fun hne => ?_
  rw [trimStart_append hne] at hread
  exact isCut_expect hsign hread

end Chain

/-! ## Values -/

theorem isCut_readQuoted {quote : Char} (hquote : quote ≠ '\\') {read : List Char} {text : String}
    (hread : readQuoted quote read (pre ++ post) = .ok (text, rest)) :
    IsCut (within quote) closing pre post text rest (readQuoted quote read pre) := by
  induction read, pre using readQuoted.induct quote with
  | case1 => exact .broken (.atEnd .at_nil rfl)
  | case2 read c cs ih =>
      rw [List.cons_append, List.cons_append, readQuoted_escaped] at hread
      rw [readQuoted_escaped]
      exact (ih hread).behind (List.suffix_append ['\\', c] cs) (by simp [next])
  | case3 => exact .broken (.atEnd .at_nil (by simp [next, lacksSign]))
  | case4 read cs hsingle hlast =>
      rw [List.cons_append, readQuoted_plain hquote, if_pos rfl] at hread
      cases hread
      rw [readQuoted_plain hquote, if_pos rfl]
      exact .whole rfl (List.suffix_cons quote cs) (by simp [next, hquote])
  | case5 read c cs hsingle hlast hne ih =>
      have hplain := ne_backslash hsingle hlast
      rw [List.cons_append, readQuoted_plain hplain, if_neg hne] at hread
      rw [readQuoted_plain hplain, if_neg hne]
      exact (ih hread).behind (List.suffix_cons c cs) (by simp [next, hplain, hne])

theorem isCut_readPatternBody {read : List Char} {body : String}
    (hread : readPatternBody read (pre ++ post) = .ok (body, rest)) :
    IsCut (within '/') closing pre post body rest (readPatternBody read pre) := by
  induction read, pre using readPatternBody.induct with
  | case1 => exact .broken (.atEnd .at_nil rfl)
  | case2 read cs ih =>
      rw [List.cons_append, List.cons_append, readPatternBody] at hread
      rw [readPatternBody]
      exact (ih hread).behind (List.suffix_append ['\\', '/'] cs) (by simp [next])
  | case3 read c cs hslash ih =>
      rw [List.cons_append, List.cons_append, readPatternBody_escaped hslash] at hread
      rw [readPatternBody_escaped hslash]
      exact (ih hread).behind (List.suffix_append ['\\', c] cs) (by simp [next])
  | case4 => exact .broken (.atEnd .at_nil (by simp [next, lacksSign]))
  | case5 read cs =>
      rw [List.cons_append, readPatternBody_plain (by decide), if_pos rfl] at hread
      cases hread
      rw [readPatternBody_plain (by decide), if_pos rfl]
      exact .whole rfl (List.suffix_cons '/' cs) (by simp [next])
  | case6 read c cs _ hsingle hlast hslash ih =>
      have hplain := ne_backslash hsingle hlast
      rw [List.cons_append, readPatternBody_plain hplain, if_neg hslash] at hread
      rw [readPatternBody_plain hplain, if_neg hslash]
      exact (ih hread).behind (List.suffix_cons c cs) (by simp [next, hplain, hslash])

theorem isEnd_of_inlineFlags {pattern : String} {flags : List Char} {stop : Stop}
    (hflags : inlineFlags pattern flags = .error stop) : stop.isEnd = true := by
  induction flags with
  | nil => cases hflags
  | cons flag flags ih =>
      rw [inlineFlags] at hflags
      split_ifs at hflags
      · split at hflags <;> cases hflags
        next hrest => exact ih hrest
      · exact ih hflags
      · cases hflags
        rfl

/-- The flags of a pattern, behind its body. -/
def readFlags (body : String) (cs : List Char) : Reading TestValue :=
  match inlineFlags body (cs.takeWhile Char.isAlpha) with
  | .error stop => .error stop
  | .ok flags =>
      let source := if flags.isEmpty then body else "(?" ++ String.ofList flags ++ ")" ++ body
      match Pattern.parse? source with
      | some pattern => .ok (.pattern source pattern, cs.dropWhile Char.isAlpha)
      | none => .error (.invalidPattern body)

theorem readPattern_eq (cs : List Char) :
    readPattern cs = (readPatternBody [] cs).bind fun (body, cs) => readFlags body cs := by
  rw [readPattern]
  cases readPatternBody [] cs <;> rfl

theorem atEnd_readFlags (body : String) (hflags : cs.dropWhile Char.isAlpha = []) :
    AtEnd (readFlags body cs) := by
  rw [readFlags]
  split
  next hstop => exact .error (isEnd_of_inlineFlags hstop)
  next =>
    simp only
    split
    · rw [hflags]
      exact .ok _
    · exact .error rfl

theorem isCut_readFlags {body : String} {value : TestValue}
    (hread : readFlags body (pre ++ post) = .ok (value, rest)) :
    IsCut closing closing pre post value rest (readFlags body pre) := by
  have hignores : closing.Ignores Char.isAlpha := closing_ignores (by decide)
  by_cases hdrop : pre.dropWhile Char.isAlpha = []
  · exact .broken (hignores.breaks rfl hdrop (atEnd_readFlags body hdrop))
  · obtain ⟨htake, hrest⟩ := @run_append _ _ post (.inl hdrop)
    rw [readFlags, htake] at hread
    rw [readFlags]
    split at hread
    next => cases hread
    next flags hflags =>
      simp only at hread
      split at hread
      next pattern hpattern =>
        cases hread
        simp only [hpattern]
        exact .whole hrest (List.dropWhile_suffix _) (hignores.after_dropWhile pre).symm
      next => cases hread

theorem isCut_readPattern {value : TestValue}
    (hread : readPattern (pre ++ post) = .ok (value, rest)) :
    IsCut (within '/') closing pre post value rest (readPattern pre) := by
  rw [readPattern_eq] at hread ⊢
  obtain ⟨⟨body, after⟩, hbody, hflags⟩ := bind_eq_ok_iff.mp hread
  refine (isCut_readPatternBody hbody).bind (fun body => atEnd_readFlags body rfl) ?_
  rintro left rfl -
  exact isCut_readFlags hflags

/-- A value without marks around it. -/
def readWord (cs : List Char) : Reading TestValue :=
  let word := String.ofList (cs.takeWhile isWordChar)
  if word.isEmpty then .error (.at cs)
  else
    let value := match Number.ofText? word with
      | some x => TestValue.number x
      | none => TestValue.literal word
    .ok (value, cs.dropWhile isWordChar)

theorem readTestValue_word {c : Char} (hmark : c ∉ ['\'', '"', '/']) (comparison : Comparison)
    (cs : List Char) : readTestValue comparison (c :: cs) = readWord (c :: cs) := by
  simp only [List.mem_cons, List.not_mem_nil, or_false, not_or] at hmark
  rw [readTestValue.eq_def]
  split
  next heq => cases heq
  next heq => exact absurd (List.cons.inj heq).1 hmark.1
  next heq => exact absurd (List.cons.inj heq).1 hmark.2.1
  next heq => exact absurd (List.cons.inj heq).1 hmark.2.2
  next => rfl

theorem isCut_readWord {c : Char} {value : TestValue} (hmark : c ∉ ['\'', '"', '/'])
    (hread : readWord (c :: pre ++ post) = .ok (value, rest)) :
    IsCut compared closing (c :: pre) post value rest (readWord (c :: pre)) := by
  simp only [List.mem_cons, List.not_mem_nil, or_false] at hmark
  have hword : isWordChar c = true := by
    by_contra hnot
    rw [readWord, List.cons_append, List.takeWhile_cons_of_neg hnot] at hread
    cases hread
  have hblank : isBlank c = false := by
    rw [isWordChar, Bool.and_eq_true, Bool.not_eq_true'] at hword
    exact hword.1
  have hnext : compared.next c = closing := by simp [next, ofValue, hblank, hmark]
  have hafter := after_dropWhile_cons hword (hnext ▸ closing_ignores (by decide)) pre
  rw [hnext] at hafter
  have hsome : ∀ more, (String.ofList ((c :: more).takeWhile isWordChar)).isEmpty = false := by
    intro more
    rw [List.takeWhile_cons_of_pos hword]
    simp
  rw [readWord]
  simp only [hsome, Bool.false_eq_true, if_false]
  by_cases hdrop : (c :: pre).dropWhile isWordChar = []
  · rw [hdrop] at hafter ⊢
    exact .broken (.atEnd (.ok _) (by rw [hafter]; rfl))
  · obtain ⟨htake, hrest⟩ := @run_append _ _ post (.inl hdrop)
    rw [readWord, htake] at hread
    simp only [hsome, Bool.false_eq_true, if_false] at hread
    cases hread
    exact .whole hrest (List.dropWhile_suffix _) hafter

theorem isCut_readTestValue {comparison : Comparison} {value : TestValue}
    (hread : readTestValue comparison (pre ++ post) = .ok (value, rest)) :
    IsCut compared closing pre post value rest (readTestValue comparison pre) := by
  have hquoted : ∀ {quote : Char} {cs : List Char}, quote ≠ '\\' →
      compared.next quote = within quote →
      (readQuoted quote [] (cs ++ post)).map (fun found => (TestValue.literal found.1, found.2)) =
        .ok (value, rest) →
      IsCut compared closing (quote :: cs) post value rest
        ((readQuoted quote [] cs).map fun found => (TestValue.literal found.1, found.2)) := by
    intro quote cs hquote hnext hread
    obtain ⟨⟨text, after⟩, htext, heq⟩ := map_eq_ok_iff.mp hread
    cases heq
    refine .cons ?_
    rw [hnext]
    exact (isCut_readQuoted hquote htext).map TestValue.literal
  cases pre with
  | nil => exact .broken (.atEnd .at_nil rfl)
  | cons c cs =>
      by_cases hmark : c ∈ ['\'', '"', '/']
      · simp only [List.mem_cons, List.not_mem_nil, or_false] at hmark
        rcases hmark with rfl | rfl | rfl
        · exact hquoted (by decide) (by decide) hread
        · exact hquoted (by decide) (by decide) hread
        · rw [List.cons_append, readTestValue] at hread
          rw [readTestValue]
          split_ifs at hread ⊢ with hcomparison
          exact .cons (isCut_readPattern hread)
      · rw [List.cons_append, readTestValue_word hmark] at hread
        rw [readTestValue_word hmark]
        exact isCut_readWord hmark hread

/-! ## Attribute tests -/

/-- A sign that another could go on is whole before any character but an equals sign. -/
theorem isCut_ordered {c : Char} {sign comparison : Comparison} (hnext : named.next c = ordered)
    (hsign : ∀ {d : Char}, d ≠ '=' → ∀ cs, readComparison (c :: d :: cs) = .ok (sign, d :: cs))
    (hwhole : ∀ after, pre ≠ '=' :: after)
    (hread : readComparison (c :: pre ++ post) = .ok (comparison, rest)) :
    IsCut named compared (c :: pre) post comparison rest (.ok (sign, pre)) := by
  cases pre with
  | nil => exact .broken (.atEnd (.ok sign) (by rw [after_cons, hnext]; rfl))
  | cons d pre =>
      have hd : d ≠ '=' := by
        rintro rfl
        exact hwhole pre rfl
      rw [List.cons_append, List.cons_append, hsign hd] at hread
      cases hread
      exact .whole rfl (List.suffix_cons c _) (by rw [after_cons, hnext]; simp [next, hd])

/-- A sign that is cut in two is blamed, and so is what stands before a sign that is missing. -/
theorem isCut_readComparison {comparison : Comparison}
    (hread : readComparison (pre ++ post) = .ok (comparison, rest)) :
    IsCut named compared pre post comparison rest (readComparison pre) := by
  rw [readComparison.eq_def pre]
  split
  next cs =>
    cases hread
    exact .whole rfl (List.suffix_append ['!', '='] cs) rfl
  next cs =>
    cases hread
    exact .whole rfl (List.suffix_append ['<', '='] cs) rfl
  next cs =>
    cases hread
    exact .whole rfl (List.suffix_append ['>', '='] cs) rfl
  next cs =>
    cases hread
    exact .whole rfl (List.suffix_cons '=' cs) rfl
  next cs hwhole =>
    have hsign : ∀ {d : Char}, d ≠ '=' →
        ∀ cs, readComparison ('<' :: d :: cs) = .ok (.lt, d :: cs) :=
      fun hd cs => by simp [readComparison, hd]
    exact isCut_ordered rfl hsign (fun after heq => hwhole after (by rw [heq])) hread
  next cs hwhole =>
    have hsign : ∀ {d : Char}, d ≠ '=' →
        ∀ cs, readComparison ('>' :: d :: cs) = .ok (.gt, d :: cs) :=
      fun hd cs => by simp [readComparison, hd]
    exact isCut_ordered rfl hsign (fun after heq => hwhole after (by rw [heq])) hread
  next => exact .broken (.blamed rfl trivial rfl)
  next c cs hne hle hge heq hlt hgt =>
    rw [List.cons_append, readComparison.eq_def] at hread
    split at hread
    next hcons =>
      obtain ⟨rfl, hcs⟩ := List.cons.inj hcons
      cases cs with
      | nil => exact .broken (.blamed rfl ⟨rfl, List.suffix_rfl⟩ rfl)
      | cons d cs =>
          obtain rfl := (List.cons.inj hcs).1
          exact (hne cs rfl rfl).elim
    next hcons => exact (hlt (List.cons.inj hcons).1).elim
    next hcons => exact (hgt (List.cons.inj hcons).1).elim
    next hcons => exact (heq (List.cons.inj hcons).1).elim
    next hcons => exact (hlt (List.cons.inj hcons).1).elim
    next hcons => exact (hgt (List.cons.inj hcons).1).elim
    next => cases hread
    next => cases hread

/-- An attribute test behind its sign. -/
def readValue (name : List Char) (comparison : Comparison) (cs : List Char) :
    Reading AttributeTest :=
  (readTestValue comparison cs).bind fun (value, cs) =>
    (expect ']' (trimStart cs)).map fun cs => (⟨splitPath name, some (comparison, value)⟩, cs)

/-- An attribute test behind its name. -/
def readSign (name : List Char) : List Char → Reading AttributeTest
  | ']' :: rest => .ok (⟨splitPath name, none⟩, rest)
  | cs =>
      (readComparison cs).bind fun (comparison, cs) => readValue name comparison (trimStart cs)

theorem readSign_of_ne (name : List Char) (hopen : ∀ rest, cs ≠ ']' :: rest) :
    readSign name cs = (readComparison cs).bind fun (comparison, cs) =>
      readValue name comparison (trimStart cs) := by
  rw [readSign.eq_def]
  split
  next => exact absurd rfl (hopen _)
  next => rfl

/-- An attribute test from its name on. -/
def readNamed (cs : List Char) : Reading AttributeTest :=
  if (cs.takeWhile isAttributeChar).isEmpty then .error (.at cs)
  else readSign (cs.takeWhile isAttributeChar) (trimStart (cs.dropWhile isAttributeChar))

theorem readAttribute_eq (cs : List Char) : readAttribute cs = readNamed (trimStart cs) := by
  simp only [readAttribute, readNamed]
  generalize trimStart ((trimStart cs).dropWhile isAttributeChar) = rest
  refine if_congr Iff.rfl rfl ?_
  split
  next => rfl
  next hopen =>
    rw [readSign_of_ne _ hopen]
    cases readComparison rest with
    | error stop => rfl
    | ok signed =>
        simp only [Except.bind, readValue]
        cases readTestValue signed.1 (trimStart signed.2) <;> rfl

theorem isCut_readValue {name : List Char} {comparison : Comparison} {test : AttributeTest}
    (hread : readValue name comparison (pre ++ post) = .ok (test, rest)) :
    IsCut compared outside pre post test rest (readValue name comparison pre) := by
  obtain ⟨⟨value, after⟩, hvalue, hclose⟩ := bind_eq_ok_iff.mp hread
  refine (isCut_readTestValue hvalue).bind (fun _ => .at_nil) ?_
  rintro left rfl -
  obtain ⟨_, -, heq⟩ := map_eq_ok_iff.mp hclose
  cases heq
  exact isCut_trim_expect (closing_ignores (by decide)) rfl hclose

theorem isCut_readSign {name : List Char} {test : AttributeTest} (hne : pre ≠ [])
    (hread : readSign name (pre ++ post) = .ok (test, rest)) :
    IsCut named outside pre post test rest (readSign name pre) := by
  obtain ⟨c, pre, rfl⟩ := List.exists_cons_of_ne_nil hne
  by_cases hc : c = ']'
  · subst hc
    cases hread
    exact .whole rfl (List.suffix_cons ']' pre) rfl
  · have hopen : ∀ more rest, c :: more ≠ ']' :: rest := fun _ _ heq => hc (List.cons.inj heq).1
    rw [List.cons_append, readSign_of_ne name (hopen _)] at hread
    rw [readSign_of_ne name (hopen _)]
    obtain ⟨⟨comparison, after⟩, hsign, hvalue⟩ := bind_eq_ok_iff.mp hread
    rw [← List.cons_append] at hsign
    refine (isCut_readComparison hsign).bind (fun _ => .at_nil) ?_
    rintro left rfl -
    refine .dropWhile (readValue name comparison) compared_ignores_isBlank (.atEnd .at_nil rfl)
      fun hne => ?_
    simp only [trimStart_append hne] at hvalue
    exact isCut_readValue hvalue

theorem isCut_readNamed {test : AttributeTest} (hne : pre ≠ [])
    (hread : readNamed (pre ++ post) = .ok (test, rest)) :
    IsCut opened outside pre post test rest (readNamed pre) := by
  obtain ⟨c, pre, rfl⟩ := List.exists_cons_of_ne_nil hne
  have hname : isAttributeChar c = true := by
    by_contra hnot
    rw [readNamed, List.cons_append, List.takeWhile_cons_of_neg hnot] at hread
    cases hread
  have hblank : isBlank c = false := by
    rw [isAttributeChar, Bool.and_eq_true, Bool.not_eq_true'] at hname
    exact hname.1
  have hnext : opened.next c = named := by simp [next, hblank]
  have hafter := after_dropWhile_cons hname (hnext ▸ named_ignores_isAttributeChar) pre
  rw [hnext] at hafter
  have hsome : ∀ more, ((c :: more).takeWhile isAttributeChar).isEmpty = false := by
    intro more
    rw [List.takeWhile_cons_of_pos hname]
    rfl
  rw [readNamed, hsome, if_neg Bool.false_ne_true]
  by_cases hdrop : (c :: pre).dropWhile isAttributeChar = []
  · rw [hdrop] at hafter ⊢
    exact .broken (.blamed rfl trivial (by rw [hafter]; rfl))
  · obtain ⟨htake, hrest⟩ := @run_append _ _ post (.inl hdrop)
    rw [readNamed, htake, hrest, hsome, if_neg Bool.false_ne_true] at hread
    refine IsCut.behind ?_ (List.dropWhile_suffix isAttributeChar) hafter
    refine .dropWhile (readSign _) named_ignores_isBlank (.blamed rfl trivial rfl) fun hne => ?_
    rw [trimStart_append hne] at hread
    exact isCut_readSign hne hread

theorem isCut_readAttribute {test : AttributeTest}
    (hread : readAttribute (pre ++ post) = .ok (test, rest)) :
    IsCut opened outside pre post test rest (readAttribute pre) := by
  rw [readAttribute_eq] at hread ⊢
  refine .dropWhile readNamed opened_ignores_isBlank (.atEnd .at_nil rfl) fun hne => ?_
  rw [trimStart_append hne] at hread
  exact isCut_readNamed hne hread

/-! ## Positions -/

/-- A position behind its opening parenthesis. -/
def readDigits (cs : List Char) : Reading Nat :=
  let digits := cs.takeWhile Char.isDigit
  let rest := cs.dropWhile Char.isDigit
  if digits.isEmpty || Nat.pow 2 64 ≤ Number.digitsValue digits then .error (.at rest)
  else (expect ')' (trimStart rest)).map fun cs => (Number.digitsValue digits, cs)

theorem readPosition_cons (cs : List Char) :
    readPosition ('(' :: cs) = readDigits (trimStart cs) := rfl

theorem isCut_readDigits {position : Nat}
    (hread : readDigits (pre ++ post) = .ok (position, rest)) :
    IsCut outside outside pre post position rest (readDigits pre) := by
  have hignores : outside.Ignores Char.isDigit := outside_ignores (by decide)
  simp only [readDigits] at hread ⊢
  by_cases hdrop : pre.dropWhile Char.isDigit = []
  · refine .broken (hignores.breaks rfl hdrop ?_)
    rw [hdrop]
    split
    · exact .at_nil
    · exact .at_nil
  · obtain ⟨htake, hrest⟩ := @run_append _ _ post (.inl hdrop)
    rw [htake, hrest] at hread
    split_ifs at hread ⊢
    obtain ⟨_, -, heq⟩ := map_eq_ok_iff.mp hread
    cases heq
    refine IsCut.behind ?_ (List.dropWhile_suffix Char.isDigit)
      (hignores.after_dropWhile pre).symm
    exact isCut_trim_expect (outside_ignores (by decide)) rfl hread

theorem isCut_readPosition {position : Nat}
    (hread : readPosition (pre ++ post) = .ok (position, rest)) :
    IsCut outside outside pre post position rest (readPosition pre) := by
  cases pre with
  | nil => exact .broken (.atEnd .at_nil rfl)
  | cons c pre =>
      obtain rfl : c = '(' := by
        by_contra hne
        simp [readPosition, expect, hne] at hread
      rw [List.cons_append, readPosition_cons] at hread
      rw [readPosition_cons]
      refine .cons (.dropWhile readDigits (outside_ignores (by decide)) (.atEnd .at_nil rfl) ?_)
      intro hne
      rw [trimStart_append hne] at hread
      exact isCut_readDigits hread

end Selector

end ReactiveLint
