import ReactiveLint.Proofs.Syntax.Loaded
import ReactiveLint.Proofs.Text.Units

/-!
# The texts of loaded nodes

A loaded tree has its spans in bytes, though its objects give their ranges in UTF-16 units.
The spans lie between characters all the same, and a range that lies between characters is
cut out of the source as it is out of the UTF-16 form of the source.
-/

namespace ReactiveLint.Estree

open Text (IsBoundary)
open Text.Utf16 (IsUnitBoundary byteIndex)

variable {source : String} {members object : Members} {tree : Tree} {id : NodeId}

/-- The nodes of a tree lie between the characters of a source, and their texts are what the
ranges of their objects cut out of its UTF-16 form. -/
structure IsCutOut (source : String) (members : Members) (tree : Tree) : Prop where
  onBoundaries : ∀ id < tree.size, IsBoundary source.toList (tree.span id).start ∧
    IsBoundary source.toList (tree.span id).stop
  texts : ∀ (id : NodeId) (object : Members) (start stop : Nat),
    (objectsOf members)[id]? = some object → Ranges object (.int start) (.int stop) →
    IsUnitBoundary source.toList start → IsUnitBoundary source.toList stop →
      Text.Utf16.encode (tree.text id).toList =
        ((Text.Utf16.encode source.toList).drop start).take (stop - start)

/-- Where a node stands is what its object says, in bytes. -/
theorem IsLoaded.span_eq (hloaded : IsLoaded source members tree)
    (hobject : (objectsOf members)[id]? = some object) {start stop : Nat}
    (hrange : Ranges object (.int start) (.int stop)) :
    tree.span id = ⟨byteIndex source start, byteIndex source stop⟩ := by
  obtain ⟨first, last, hunits, hspan⟩ := (hloaded.depicts id object hobject).span
  rw [unitRange?_eq_some_iff.mpr hrange, Option.some_inj, Prod.mk.injEq] at hunits
  obtain ⟨rfl, rfl⟩ := hunits
  exact hspan

theorem IsLoaded.exists_ranges (hloaded : IsLoaded source members tree) (hid : id < tree.size) :
    ∃ object, (objectsOf members)[id]? = some object ∧
      ∃ start stop : Nat, Ranges object (.int start) (.int stop) := by
  rw [hloaded.size_eq] at hid
  have hobject := List.getElem?_eq_getElem hid
  obtain ⟨start, stop, hunits, -⟩ := (hloaded.depicts id _ hobject).span
  exact ⟨_, hobject, start, stop, unitRange?_eq_some_iff.mp hunits⟩

/-- An end of a node that lies in the source is the place of a unit, so it is a boundary. -/
theorem isBoundary_byteIndex {index : Nat}
    (hle : byteIndex source index ≤ Text.byteLength source.toList) :
    IsBoundary source.toList (byteIndex source index) := by
  have hinside := Text.Utf16.le_length_of_byteIndex_le hle
  obtain ⟨before, after, hparts, hlocate⟩ := Text.Utf16.exists_locate? hinside
  rw [Text.Utf16.byteIndex_of_locate? hlocate]
  exact Text.isBoundary_iff.mpr ⟨before, after, hparts, rfl⟩

theorem IsLoaded.isCutOut (hloaded : IsLoaded source members tree) (hbuilt : tree.IsBuilt) :
    IsCutOut source members tree := by
  have hfits : ∀ id < tree.size, (tree.span id).FitsIn (Text.byteLength source.toList) :=
    fun id hid => hloaded.source_eq ▸ hbuilt.span_fitsIn hid
  constructor
  · intro id hid
    obtain ⟨object, hobject, start, stop, hrange⟩ := hloaded.exists_ranges hid
    have hfit := hfits id hid
    rw [hloaded.span_eq hobject hrange] at hfit ⊢
    exact ⟨isBoundary_byteIndex (Nat.le_trans hfit.1 hfit.2), isBoundary_byteIndex hfit.2⟩
  · intro id object start stop hobject hrange hstart hstop
    have hid : id < tree.size := hloaded.size_eq ▸ (List.getElem?_eq_some_iff.mp hobject).1
    have hfit := hfits id hid
    rw [hloaded.span_eq hobject hrange] at hfit
    rw [Tree.text, Tree.slice, hloaded.source_eq, hloaded.span_eq hobject hrange]
    exact Text.Utf16.encode_slice hstart hstop hfit.1

/-- A value that is a tree is the object of its root, and the tree is loaded from it. -/
theorem exists_isLoaded {json : Json} (htree : ofJson json.canonical source = .ok tree) :
    ∃ members, json.canonical = .object members ∧ IsLoaded source members tree ∧ tree.IsBuilt := by
  have hcanonical : json.canonical.IsCanonical := ⟨json, rfl⟩
  generalize json.canonical = value at hcanonical htree
  cases value with
  | object members =>
      rw [ofJson] at htree
      cases hread : nodeOf source [] members with
      | error found => simp [hread] at htree
      | ok read =>
          obtain ⟨arena, _ | root⟩ := read
          · simp [hread] at htree
          · simp only [hread] at htree
            exact ⟨members, rfl, isLoaded_of_build? hread hcanonical htree,
              Tree.isBuilt_of_build? htree⟩
  | _ => cases htree

/-- Ranges in UTF-16 units are turned into spans in bytes: the units of a source each into the
start of their character, and the nodes of any tree that is loaded from it into the parts of
the source that their ranges mean. -/
theorem isConverted_and_isCutOut (source : String) :
    Text.Utf16.IsConverted source ∧
      ∀ (json : Json) (tree : Tree), ofJson json.canonical source = .ok tree →
        ∃ members, json.canonical = .object members ∧ IsLoaded source members tree ∧
          IsCutOut source members tree := by
  refine ⟨Text.Utf16.isConverted source, fun json tree htree => ?_⟩
  obtain ⟨members, hmembers, hloaded, hbuilt⟩ := exists_isLoaded htree
  exact ⟨members, hmembers, hloaded, hloaded.isCutOut hbuilt⟩

end ReactiveLint.Estree
