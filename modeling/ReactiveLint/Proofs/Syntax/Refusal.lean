import ReactiveLint.Proofs.Syntax.Units

/-!
# Ranges outside of the source

An index behind the source has a byte offset behind it, for which the tree is refused.  In a
source that is not ASCII this offset is a sum, which stops the loader when it is no 64-bit
word.
-/

namespace ReactiveLint.Estree

open Text.Utf16 (Overflows offsetLimit)

variable {source : String} {members object : Members} {start stop index : Nat}

/-! ## Sums that are too large -/

/-- An object of a known kind whose range is written in natural numbers. -/
def Declares (object : Members) (start stop : Nat) : Prop :=
  (∃ typeName kind, typeName? object = some typeName ∧ Kind.ofName? typeName = some kind) ∧
    Ranges object (.int start) (.int stop)

/-- The loader gets past an object by itself. -/
def IsReadable (source : String) (object : Members) : Prop :=
  ∃ start stop, Declares object start stop ∧ ¬ Overflows source start ∧ ¬ Overflows source stop

/-- The end of the range of an object that is the first one to overflow. -/
def OverflowsAt (source : String) (object : Members) (index : Nat) : Prop :=
  ∃ start stop, Declares object start stop ∧
    (Overflows source start ∧ index = start ∨
      ¬ Overflows source start ∧ Overflows source stop ∧ index = stop)

/-- On the way through the nodes an end of a range overflows, and all nodes before can be read. -/
def OverflowsFirst (source : String) (members : Members) (index : Nat) : Prop :=
  ∃ before object after, visits members = before ++ object :: after ∧
    (∀ earlier ∈ before, IsReadable source earlier) ∧ OverflowsAt source object index

theorem byteOffset_of_overflows (hword : index < offsetLimit) (hover : Overflows source index) :
    byteOffset source index = .error (.offsetOverflow index) := by
  rw [byteOffset, (Text.Utf16.byteOffset?_eq_none_iff hword).mpr hover]

theorem exists_byteOffset (hword : index < offsetLimit) (hfits : ¬ Overflows source index) :
    ∃ offset, byteOffset source index = .ok offset := by
  rw [← Text.Utf16.byteOffset?_eq_none_iff hword] at hfits
  obtain ⟨offset, hoffset⟩ := Option.ne_none_iff_exists'.mp hfits
  exact ⟨offset, by rw [byteOffset, hoffset]⟩

/-- The ends of a range are turned into bytes one after the other. -/
theorem Declares.exists_readHead_eq (hdeclares : Declares object start stop) (source : String) :
    ∃ kind, readHead source object =
      (byteOffset source start).bind fun first =>
        (byteOffset source stop).map fun last => (kind, ⟨first, last⟩) := by
  obtain ⟨⟨typeName, kind, htype, hkind⟩, hrange⟩ := hdeclares
  refine ⟨kind, ?_⟩
  simp only [readHead, htype, hkind, spanOf, unitRange?_eq_some_iff.mpr hrange]
  cases byteOffset source start with
  | error error => rfl
  | ok first => cases byteOffset source stop <;> rfl

/-- An object that says too little is refused before any offset is looked at. -/
theorem exists_readHead_eq_error (hnone : ∀ start stop, ¬ Declares object start stop)
    (source : String) : ∃ error, readHead source object = .error error ∧
      ∀ index, error ≠ .offsetOverflow index := by
  cases htype : typeName? object with
  | none => exact ⟨.rootWithoutType, by simp only [readHead, htype], nofun⟩
  | some typeName =>
      cases hkind : Kind.ofName? typeName with
      | none => exact ⟨.unknownKind typeName, by simp only [readHead, htype, hkind], nofun⟩
      | some kind =>
          cases hrange : unitRange? object with
          | none =>
              refine ⟨.missingRange typeName, ?_, nofun⟩
              simp only [readHead, htype, hkind, spanOf, hrange]
              rfl
          | some range =>
              exact absurd ⟨⟨typeName, kind, htype, hkind⟩, unitRange?_eq_some_iff.mp hrange⟩
                (hnone range.1 range.2)

/-- The ends of the range of an object are 64-bit words. -/
def HasWords (object : Members) : Prop :=
  ∀ start stop : Nat, Ranges object (.int start) (.int stop) →
    start < offsetLimit ∧ stop < offsetLimit

theorem Declares.isReadable_or (hdeclares : Declares object start stop) (source : String) :
    IsReadable source object ∨ ∃ index, OverflowsAt source object index := by
  by_cases hstart : Overflows source start
  · exact .inr ⟨start, start, stop, hdeclares, .inl ⟨hstart, rfl⟩⟩
  · by_cases hstop : Overflows source stop
    · exact .inr ⟨stop, start, stop, hdeclares, .inr ⟨hstart, hstop, rfl⟩⟩
    · exact .inl ⟨start, stop, hdeclares, hstart, hstop⟩

section Words

variable (hwords : HasWords object)

include hwords

theorem IsReadable.exists_readHead (hreadable : IsReadable source object) :
    ∃ head, readHead source object = .ok head := by
  obtain ⟨start, stop, hdeclares, hstart, hstop⟩ := hreadable
  obtain ⟨hfirst, hlast⟩ := hwords start stop hdeclares.2
  obtain ⟨first, hfirst⟩ := exists_byteOffset hfirst hstart
  obtain ⟨last, hlast⟩ := exists_byteOffset hlast hstop
  obtain ⟨kind, hhead⟩ := hdeclares.exists_readHead_eq source
  exact ⟨_, by rw [hhead, hfirst, hlast]; rfl⟩

theorem OverflowsAt.readHead_eq (hover : OverflowsAt source object index) :
    readHead source object = .error (.offsetOverflow index) := by
  obtain ⟨start, stop, hdeclares, hover⟩ := hover
  obtain ⟨hfirst, hlast⟩ := hwords start stop hdeclares.2
  obtain ⟨kind, hhead⟩ := hdeclares.exists_readHead_eq source
  rcases hover with ⟨hstart, rfl⟩ | ⟨hstart, hstop, rfl⟩
  · rw [hhead, byteOffset_of_overflows hfirst hstart]
    rfl
  · obtain ⟨first, hfirst⟩ := exists_byteOffset hfirst hstart
    rw [hhead, hfirst, byteOffset_of_overflows hlast hstop]
    rfl

/-- An object is read, or has an end that overflows, or says too little. -/
theorem readHead_cases :
    (IsReadable source object ∧ ∃ head, readHead source object = .ok head) ∨
      (∃ index, OverflowsAt source object index ∧
        readHead source object = .error (.offsetOverflow index)) ∨
      ∃ error, readHead source object = .error error ∧ ∀ index, error ≠ .offsetOverflow index := by
  by_cases hdeclares : ∃ start stop, Declares object start stop
  · obtain ⟨start, stop, hdeclares⟩ := hdeclares
    rcases hdeclares.isReadable_or source with hreadable | ⟨index, hover⟩
    · exact .inl ⟨hreadable, hreadable.exists_readHead hwords⟩
    · exact .inr (.inl ⟨index, hover, hover.readHead_eq hwords⟩)
  · exact .inr (.inr (exists_readHead_eq_error (by simpa using hdeclares) source))

theorem exists_readHead_iff :
    (∃ head, readHead source object = .ok head) ↔ IsReadable source object := by
  refine ⟨?_, (·.exists_readHead hwords)⟩
  rintro ⟨head, hhead⟩
  rcases @readHead_cases source object hwords with ⟨hreadable, -⟩ | ⟨index, -, herror⟩ |
    ⟨error, herror, -⟩
  · exact hreadable
  · rw [hhead] at herror
    cases herror
  · rw [hhead] at herror
    cases herror

theorem readHead_eq_overflow_iff :
    readHead source object = .error (.offsetOverflow index) ↔ OverflowsAt source object index := by
  refine ⟨fun hhead => ?_, (·.readHead_eq hwords)⟩
  rcases @readHead_cases source object hwords with ⟨-, head, hok⟩ | ⟨found, hover, herror⟩ |
    ⟨error, herror, hother⟩
  · rw [hhead] at hok
    cases hok
  · rw [hhead] at herror
    cases herror
    exact hover
  · rw [hhead] at herror
    cases herror
    exact absurd rfl (hother index)

end Words

/-! ## What is refused -/

/-- The range of an object lies in the units of the source. -/
def IsInside (source : String) (object : Members) : Prop :=
  ∃ start stop : Nat, Ranges object (.int start) (.int stop) ∧
    start ≤ Text.Utf16.length source.toList ∧ stop ≤ Text.Utf16.length source.toList

/-- The nodes of a value have their ranges in 64-bit words. -/
def HasWordRanges (json : Json) : Prop :=
  ∀ members object, json = .object members → Reaches members object → HasWords object

theorem IsLoaded.isInside {tree : Tree} (hloaded : IsLoaded source members tree)
    (hbuilt : tree.IsBuilt) (hreaches : Reaches members object) : IsInside source object := by
  obtain ⟨id, hobject⟩ := List.getElem?_of_mem ((hloaded.mem_objectsOf object).mpr hreaches)
  have hid : id < tree.size := hloaded.size_eq ▸ (List.getElem?_eq_some_iff.mp hobject).1
  obtain ⟨other, hother, start, stop, hrange⟩ := hloaded.exists_ranges hid
  obtain rfl := Option.some.inj (hobject.symm.trans hother)
  have hfit := hbuilt.span_fitsIn hid
  rw [hloaded.source_eq, hloaded.span_eq hobject hrange] at hfit
  exact ⟨start, stop, hrange, Text.Utf16.le_length_of_byteIndex_le (Nat.le_trans hfit.1 hfit.2),
    Text.Utf16.le_length_of_byteIndex_le hfit.2⟩

/-- The tree of a node object is refused for its overflow only while it is read. -/
theorem ofJson_eq_overflow_iff :
    ofJson (.object members) source = .error (.offsetOverflow index) ↔
      firstRefusal? source (visits members) = some (.offsetOverflow index) := by
  rw [← refusal?_nodeOf members [], refusal?_eq_some_iff, ofJson]
  cases hread : nodeOf source [] members with
  | error error => simp
  | ok read =>
      obtain ⟨arena, _ | root⟩ := read
      · simp
      · simp only [reduceCtorEq, iff_false]
        intro hbuild
        obtain ⟨draft, -, herror⟩ := (postOrder_of_nodeOf hread).build?_eq_error hbuild
        cases herror

theorem firstRefusal?_eq_overflow_iff (hwords : ∀ object ∈ visits members, HasWords object) :
    firstRefusal? source (visits members) = some (.offsetOverflow index) ↔
      OverflowsFirst source members index := by
  rw [firstRefusal?, List.findSome?_eq_some_iff]
  refine exists_congr fun before => exists_congr fun object => exists_congr fun after => ?_
  refine and_congr_right fun hvisits => ?_
  rw [hvisits] at hwords
  rw [refusal?_eq_some_iff, readHead_eq_overflow_iff (hwords object (by simp)), and_comm]
  refine and_congr_left fun _ => forall₂_congr fun earlier hearlier => ?_
  rw [refusal?_eq_none_iff, exists_readHead_iff (hwords earlier (List.mem_append_left _ hearlier))]

theorem ofJson_eq_overflow_iff_overflowsFirst {json : Json} (hwords : HasWordRanges json) :
    ofJson json source = .error (.offsetOverflow index) ↔
      ∃ members, json = .object members ∧ OverflowsFirst source members index := by
  cases json with
  | object members =>
      have hvisits : ∀ object ∈ visits members, HasWords object := fun object hobject =>
        hwords members object rfl (mem_visits_iff.mp hobject).2
      rw [ofJson_eq_overflow_iff, firstRefusal?_eq_overflow_iff hvisits]
      simp
  | _ => simp [ofJson]

/-- With ranges in 64-bit words a value is a tree only when all its nodes lie in the source.
The sum of the loader overflows exactly at the first end of a node that it cannot turn into
bytes, when all nodes that are read before can be read; otherwise a value with a node outside
of the source is refused with an error. -/
theorem ofJson_of_hasWordRanges (json : Json) (source : String)
    (hwords : HasWordRanges json.canonical) :
    (∀ tree, ofJson json.canonical source = .ok tree →
      ∃ members, json.canonical = .object members ∧ IsLoaded source members tree ∧
        ∀ object, Reaches members object → IsInside source object) ∧
    (∀ index, ofJson json.canonical source = .error (.offsetOverflow index) ↔
      ∃ members, json.canonical = .object members ∧ OverflowsFirst source members index) ∧
    ∀ members object, json.canonical = .object members → Reaches members object →
      ¬ IsInside source object → (∀ index, ¬ OverflowsFirst source members index) →
      ∃ error, ofJson json.canonical source = .error error ∧
        ∀ index, error ≠ .offsetOverflow index := by
  refine ⟨fun tree htree => ?_, fun index => ofJson_eq_overflow_iff_overflowsFirst hwords, ?_⟩
  · obtain ⟨members, hmembers, hloaded, hbuilt⟩ := exists_isLoaded htree
    exact ⟨members, hmembers, hloaded, fun object => hloaded.isInside hbuilt⟩
  · intro members object hmembers hreaches houtside hsmall
    cases hresult : ofJson json.canonical source with
    | ok tree =>
        obtain ⟨_, hother, hloaded, hbuilt⟩ := exists_isLoaded hresult
        obtain rfl := Json.object.inj (hmembers.symm.trans hother)
        exact absurd (hloaded.isInside hbuilt hreaches) houtside
    | error error =>
        refine ⟨error, rfl, ?_⟩
        rintro index rfl
        obtain ⟨_, hother, hfirst⟩ := (ofJson_eq_overflow_iff_overflowsFirst hwords).mp hresult
        obtain rfl := Json.object.inj (hmembers.symm.trans hother)
        exact hsmall index hfirst

/-! ## A source of two bytes -/

/-- A program whose range ends at the greatest 64-bit word. -/
def wideProgram : Members :=
  [("body", .list []), ("range", .list [.int 0, .int 18446744073709551615]),
    ("type", .str "Program")]

theorem isNode_wideProgram : IsNode wideProgram := isNode_iff_exists.mpr ⟨"Program", rfl⟩

theorem visits_wideProgram : visits wideProgram = [wideProgram] := by
  rw [visits_of_isNode isNode_wideProgram]
  simp [wideProgram, visitsOfMembers, visitsIn, visitsOfItems, positionKeys]

theorem eq_of_ranges_wideProgram (hrange : Ranges wideProgram (.int start) (.int stop)) :
    start = 0 ∧ stop = 18446744073709551615 := by
  have hunits : unitRange? wideProgram = some (0, 18446744073709551615) := rfl
  rwa [unitRange?_eq_some_iff.mpr hrange, Option.some_inj, Prod.mk.injEq] at hunits

theorem hasWordRanges_wideProgram : HasWordRanges (.object wideProgram) := by
  intro members object hmembers hreaches start stop hrange
  obtain rfl := Json.object.inj hmembers
  have hmem : object ∈ visits wideProgram := mem_visits_iff.mpr ⟨isNode_wideProgram, hreaches⟩
  obtain rfl : object = wideProgram := by simpa [visits_wideProgram] using hmem
  obtain ⟨rfl, rfl⟩ := eq_of_ranges_wideProgram hrange
  decide

theorem overflowsFirst_wideProgram : OverflowsFirst "é" wideProgram 18446744073709551615 := by
  have hdeclares : Declares wideProgram (0 : Nat) (18446744073709551615 : Nat) :=
    ⟨⟨"Program", .program, rfl, rfl⟩, .inl rfl⟩
  refine ⟨[], wideProgram, [], visits_wideProgram, by simp, ?_⟩
  exact ⟨_, _, hdeclares, .inr ⟨by simp [Overflows], ⟨by decide, by decide, by decide⟩, rfl⟩⟩

/-- Behind the one character of a source, the sum overflows unless the source is ASCII. -/
theorem ofJson_wideProgram :
    HasWordRanges (Json.object wideProgram).canonical ∧
      ofJson (Json.object wideProgram).canonical "é" =
        .error (.offsetOverflow 18446744073709551615) ∧
      ∃ error, ofJson (Json.object wideProgram).canonical "e" = .error error ∧
        ∀ index, error ≠ .offsetOverflow index := by
  have hwords : HasWordRanges (Json.object wideProgram).canonical := hasWordRanges_wideProgram
  refine ⟨hwords, ?_, ?_⟩
  · refine ((ofJson_of_hasWordRanges _ "é" hwords).2.1 _).mpr ?_
    exact ⟨wideProgram, rfl, overflowsFirst_wideProgram⟩
  · refine (ofJson_of_hasWordRanges _ "e" hwords).2.2 wideProgram wideProgram rfl .refl ?_ ?_
    · rintro ⟨start, stop, hrange, -, hstop⟩
      obtain ⟨rfl, rfl⟩ := eq_of_ranges_wideProgram hrange
      exact absurd hstop (by decide)
    · rintro index ⟨_, _, _, -, -, start, stop, -, ⟨hover, -⟩ | ⟨-, hover, -⟩⟩ <;>
        exact absurd hover.1 (by decide)

/-- Ranges of 64-bit words can make the sum overflow. -/
theorem not_forall_ofJson_ne_overflow :
    ¬ ∀ (json : Json) (source : String), HasWordRanges json.canonical →
      (∀ index, ofJson json.canonical source ≠ .error (.offsetOverflow index)) ∧
      ∀ tree members object, ofJson json.canonical source = .ok tree →
        json.canonical = .object members → Reaches members object → IsInside source object := by
  intro hall
  have hwords : HasWordRanges (Json.object wideProgram).canonical := hasWordRanges_wideProgram
  refine (hall (.object wideProgram) "é" hwords).1 18446744073709551615 ?_
  exact (ofJson_eq_overflow_iff_overflowsFirst hwords).mpr
    ⟨wideProgram, rfl, overflowsFirst_wideProgram⟩

end ReactiveLint.Estree
