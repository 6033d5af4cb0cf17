import ReactiveLint.Proofs.Syntax.Built
import ReactiveLint.Proofs.Syntax.Loading

/-!
# Which JSON values are trees

A value is a tree exactly when it is a node object and every node object in it has a known
kind and lies in the source.  The tree then has one node for each of these objects, in
post-order, with the slots that their members ask for.
-/

namespace ReactiveLint

/-- Errors about the links between nodes. -/
def TreeError.isLinkError : TreeError → Bool
  | missingRoot _ | missingNode _ _ | sharedNode _ | detached _ => true
  | _ => false

namespace Estree

variable {source : String} {arena : List NodeDraft} {members object : Members}
  {objects : List Members} {root : NodeId} {tree : Tree}

/-- Where an object says that its range begins and ends. -/
def Ranges (object : Members) (start stop : Json) : Prop :=
  Json.member? "range" object = some (.list [start, stop]) ∨
    (∀ first last, Json.member? "range" object ≠ some (.list [first, last])) ∧
      Json.member? "start" object = some start ∧ Json.member? "end" object = some stop

/-- An object of a known kind whose range is written in natural numbers and lies in the
source. -/
def Placed (source : String) (object : Members) : Prop :=
  (∃ typeName kind, typeName? object = some typeName ∧ Kind.ofName? typeName = some kind) ∧
    ∃ start stop : Nat, Ranges object (.int start) (.int stop) ∧
      (⟨Text.Utf16.byteIndex source start, Text.Utf16.byteIndex source stop⟩ : Span).FitsIn
        (Text.byteLength source.toList)

/-- A tree with one node for every node object at and below a root object. -/
structure IsLoaded (source : String) (members : Members) (tree : Tree) : Prop where
  source_eq : tree.source = source
  size_eq : tree.size = (objectsOf members).length
  depicts : ∀ id object, (objectsOf members)[id]? = some object →
    Depicts source (objectsOf members) object (tree.node id).toNodeDraft
  /-- The nodes are numbered in post-order, along the slots in their order. -/
  postOrder : Tree.PostOrder tree.arena [tree.root] (List.range tree.size)
  mem_objectsOf : ∀ object, object ∈ objectsOf members ↔ Reaches members object
  /-- The slots stand in the order of their keys. -/
  inKeyOrder : ∀ object, Reaches members object → Json.InKeyOrder object

theorem asNat?_eq_some_iff {json : Json} {value : Nat} :
    json.asNat? = some value ↔ json = .int value := by
  cases json with
  | int written =>
      cases written with
      | ofNat value => simp [Json.asNat?, Int.ofNat_inj]
      | negSucc value => simp [Json.asNat?]
  | _ => simp [Json.asNat?]

/-- Two ends are units of the text when both are written as naturals. -/
theorem ends_eq_some_iff {start stop : Nat} (ends : Option Json × Option Json) :
    (match ends.1.bind Json.asNat?, ends.2.bind Json.asNat? with
      | some start, some stop => some (start, stop)
      | _, _ => none) = some (start, stop) ↔
        ends = (some (.int start), some (.int stop)) := by
  obtain ⟨first, last⟩ := ends
  have hwritten : ∀ {json : Option Json} {unit : Nat},
      json.bind Json.asNat? = some unit ↔ json = some (.int unit) := by
    intro json unit
    rw [Option.bind_eq_some_iff]
    simp [asNat?_eq_some_iff]
  rw [Prod.mk.injEq, ← hwritten, ← hwritten]
  cases first.bind Json.asNat? <;> cases last.bind Json.asNat? <;> simp

theorem unitRange?_eq_some_iff {start stop : Nat} :
    unitRange? object = some (start, stop) ↔ Ranges object (.int start) (.int stop) := by
  rw [Ranges]
  refine (ends_eq_some_iff _).trans ?_
  split
  next hpair => simp [hpair]
  next hother =>
      have hother : ∀ first last, Json.member? "range" object ≠ some (.list [first, last]) :=
        hother
      simp [hother]

theorem Placed.exists_head (hplaced : Placed source object) :
    ∃ head, readHead source object = .ok head := by
  obtain ⟨⟨typeName, kind, htype, hkind⟩, start, stop, hrange, hforward, hinside⟩ := hplaced
  have hstart := Text.Utf16.byteOffset?_of_le (Nat.le_trans hforward hinside)
  have hstop := Text.Utf16.byteOffset?_of_le hinside
  refine ⟨(kind, ⟨Text.Utf16.byteIndex source start, Text.Utf16.byteIndex source stop⟩), ?_⟩
  simp only [readHead, htype, hkind, spanOf, unitRange?_eq_some_iff.mpr hrange, byteOffset, hstart,
    hstop]
  rfl

/-- The span of a draft lies in the source when its object is placed. -/
theorem Depicts.fitsIn_iff {draft : NodeDraft} (hdepicts : Depicts source objects object draft) :
    draft.span.FitsIn (Text.byteLength source.toList) ↔ Placed source object := by
  obtain ⟨typeName, htype, hkind⟩ := hdepicts.kind
  obtain ⟨start, stop, hrange, hspan⟩ := hdepicts.span
  rw [hspan]
  constructor
  · intro hfits
    exact ⟨⟨typeName, _, htype, hkind⟩, start, stop, unitRange?_eq_some_iff.mp hrange, hfits⟩
  · rintro ⟨-, first, last, hrange', hfits⟩
    obtain ⟨rfl, rfl⟩ := Prod.mk.inj
      (Option.some.inj (hrange.symm.trans (unitRange?_eq_some_iff.mpr hrange')))
    exact hfits

theorem forall_fitsIn_iff {listed : List Members}
    (hdepicts : List.Forall₂ (Depicts source objects) listed arena) :
    (∀ draft ∈ arena, draft.span.FitsIn (Text.byteLength source.toList)) ↔
      ∀ object ∈ listed, Placed source object := by
  induction hdepicts with
  | nil => simp
  | cons hfirst _ ih => rw [List.forall_mem_cons, List.forall_mem_cons, hfirst.fitsIn_iff, ih]

theorem byteOffset_ne_linkError {index : Nat} {error : TreeError}
    (hoffset : byteOffset source index = .error error) : error.isLinkError = false := by
  rw [byteOffset] at hoffset
  split at hoffset
  next => simp at hoffset
  next =>
    obtain rfl := Except.error.inj hoffset
    rfl

theorem spanOf_ne_linkError {typeName : String} {error : TreeError}
    (hspan : spanOf source typeName object = .error error) : error.isLinkError = false := by
  rw [spanOf] at hspan
  split at hspan
  next =>
    obtain rfl := Except.error.inj hspan
    rfl
  next start stop _ =>
    cases hstart : byteOffset source start with
    | error found =>
        rw [hstart] at hspan
        obtain rfl := Except.error.inj hspan
        exact byteOffset_ne_linkError hstart
    | ok first =>
        cases hstop : byteOffset source stop with
        | error found =>
            rw [hstart, hstop] at hspan
            obtain rfl := Except.error.inj hspan
            exact byteOffset_ne_linkError hstop
        | ok last =>
            rw [hstart, hstop] at hspan
            cases hspan

theorem readHead_ne_linkError {error : TreeError} (hhead : readHead source object = .error error) :
    error.isLinkError = false := by
  cases htype : typeName? object with
  | none =>
      simp only [readHead, htype, Except.error.injEq] at hhead
      subst hhead
      rfl
  | some typeName =>
      cases hkind : Kind.ofName? typeName with
      | none =>
          simp only [readHead, htype, hkind, Except.error.injEq] at hhead
          subst hhead
          rfl
      | some kind =>
          cases hspan : spanOf source typeName object with
          | ok span => simp [readHead, htype, hkind, hspan, Except.map] at hhead
          | error found =>
              simp only [readHead, htype, hkind, hspan, Except.map, Except.error.injEq] at hhead
              subst hhead
              exact spanOf_ne_linkError hspan

section Root

variable (hread : nodeOf source [] members = .ok (arena, some root))

include hread

theorem isNode_of_nodeOf : IsNode members :=
  (reads_nodeOf members hread).whole.2.1

theorem depicts_of_nodeOf :
    List.Forall₂ (Depicts source (objectsOf members)) (objectsOf members) arena :=
  (reads_nodeOf members hread).shown

theorem postOrder_of_nodeOf : Tree.PostOrder arena [root] (List.range arena.length) :=
  (reads_nodeOf members hread).postOrder

/-- The new nodes make a tree exactly when all objects are placed. -/
theorem exists_build?_iff_placed :
    (∃ tree, Tree.build? arena root source = .ok tree) ↔
      ∀ object ∈ objectsOf members, Placed source object := by
  rw [← forall_fitsIn_iff (depicts_of_nodeOf hread), Tree.exists_build?_iff]
  exact ⟨(·.fitsIn), (postOrder_of_nodeOf hread).linkable⟩

theorem isLoaded_of_build? (hcanonical : (Json.object members).IsCanonical)
    (hbuild : Tree.build? arena root source = .ok tree) : IsLoaded source members tree := by
  obtain ⟨rfl, rfl, rfl⟩ := Tree.build?_eq_ok hbuild
  have hdepicts := depicts_of_nodeOf hread
  have horder := postOrder_of_nodeOf hread
  have hsize := hdepicts.length_eq
  rw [Tree.length_arena] at hsize horder
  have hmem : ∀ object, object ∈ objectsOf members ↔ Reaches members object := by
    intro object
    rw [mem_objectsOf_iff, and_iff_right (isNode_of_nodeOf hread)]
  refine ⟨rfl, hsize.symm, fun id object hobject => ?_, horder, hmem, ?_⟩
  · have hid := (List.getElem?_eq_some_iff.mp hobject).1
    rw [hsize, ← Tree.length_arena] at hid
    rw [Tree.toNodeDraft_node, List.getElem?_eq_getElem hid]
    obtain ⟨hid', rfl⟩ := List.getElem?_eq_some_iff.mp hobject
    exact hdepicts.get hid' hid
  · exact fun object hreaches => (hreaches.isCanonical hcanonical).of_object.1

end Root

/-- A value is a tree exactly when it is a node object and all node objects in it are placed.
It is never refused for the links between its nodes, and as a tree it has one node for each
of its node objects. -/
theorem ofJson_loads (json : Json) (source : String) :
    ((∃ tree, ofJson json.canonical source = .ok tree) ↔
      ∃ members, json.canonical = .object members ∧ IsNode members ∧
        ∀ object, Reaches members object → Placed source object) ∧
    (∀ error, ofJson json.canonical source = .error error → error.isLinkError = false) ∧
    ∀ tree, ofJson json.canonical source = .ok tree →
      ∃ members, json.canonical = .object members ∧ IsLoaded source members tree := by
  have hcanonical : json.canonical.IsCanonical := ⟨json, rfl⟩
  generalize json.canonical = value at hcanonical
  cases value with
  | object members =>
      have hanswers := @answers_nodeOf source members []
      simp only [ofJson, Json.object.injEq]
      cases hread : nodeOf source [] members with
      | error found =>
          rw [hread] at hanswers
          obtain ⟨object, hobject, herror⟩ := hanswers
          refine ⟨?_, ?_, by simp⟩
          · simp only [reduceCtorEq, exists_const, false_iff]
            rintro ⟨_, rfl, hnode, hplaced⟩
            obtain ⟨head, hhead⟩ := (hplaced object (mem_objectsOf_iff.mp hobject).2).exists_head
            rw [herror] at hhead
            simp at hhead
          · rintro error herror'
            obtain rfl := Except.error.inj herror'
            exact readHead_ne_linkError herror
      | ok read =>
          obtain ⟨arena, id⟩ := read
          cases id with
          | none =>
              have hplain : ¬ IsNode members :=
                (reads_nodeOf members hread).whole.2
              refine ⟨?_, ?_, by simp⟩
              · simp only [reduceCtorEq, exists_const, false_iff]
                rintro ⟨_, rfl, hnode, -⟩
                exact hplain hnode
              · rintro error herror
                obtain rfl := Except.error.inj herror
                rfl
          | some root =>
              refine ⟨?_, ?_, fun tree hbuild =>
                ⟨members, rfl, isLoaded_of_build? hread hcanonical hbuild⟩⟩
              · simp only [exists_build?_iff_placed hread, mem_objectsOf_iff]
                constructor
                · intro hplaced
                  exact ⟨members, rfl, isNode_of_nodeOf hread, fun object hreaches =>
                    hplaced object ⟨isNode_of_nodeOf hread, hreaches⟩⟩
                · rintro ⟨_, rfl, -, hplaced⟩ object ⟨-, hreaches⟩
                  exact hplaced object hreaches
              · rintro error hbuild
                obtain ⟨draft, -, rfl⟩ := (postOrder_of_nodeOf hread).build?_eq_error hbuild
                rfl
  | _ =>
      refine ⟨by simp [ofJson], ?_, by simp [ofJson]⟩
      rintro error herror
      obtain rfl := Except.error.inj herror
      rfl

end Estree

end ReactiveLint
