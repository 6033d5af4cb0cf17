import ReactiveLint.Proofs.Data.Result
import ReactiveLint.Proofs.Selector.Downward
import ReactiveLint.Proofs.Syntax.Facing

/-!
# Searches within a subtree

A `:has` looks at the nodes below the one it is asked of.  The child and the descendant
combinator do not leave the subtree, since a scope has no parent within itself.  A sibling
combinator does leave it where it is asked of the scope, and what is asked of a sibling of the
scope climbs on without end.  Where no sibling combinator is asked of a scope, equal subtrees
have equal answers.
-/

namespace ReactiveLint.Selector

variable {left right : Tree} {pair : NodeId → NodeId → Prop} {top top' id id' : NodeId}
  {selector : Selector} {options : List Selector} {alone atScope : Bool}

/-- Neither slots nor positions are asked about. -/
inductive IsStructural : Selector → Prop
  | wildcard : IsStructural .wildcard
  | scope : IsStructural .scope
  | kind (wanted : Kind) : IsStructural (.kind wanted)
  | attr (test : AttributeTest) : IsStructural (.attr test)
  | compound {parts : List Selector} (hparts : ∀ part ∈ parts, IsStructural part) :
      IsStructural (.compound parts)
  | not {options : List Selector} (hoptions : ∀ option ∈ options, IsStructural option) :
      IsStructural (.not options)
  | any {options : List Selector} (hoptions : ∀ option ∈ options, IsStructural option) :
      IsStructural (.any options)
  | has {options : List Selector} (hoptions : ∀ option ∈ options, IsStructural option) :
      IsStructural (.has options)
  | combine (combinator : Combinator) {left right : Selector} (hleft : IsStructural left)
      (hright : IsStructural right) : IsStructural (.combine combinator left right)

/-- A structural selector in which no sibling combinator can be asked of a scope.  The second flag
says whether the selector itself can be: a search starts below the scope, and the combinators
upward may reach it.  A scope that stands alone, with no sibling before it, is exempt. -/
inductive IsConfined : (alone atScope : Bool) → Selector → Prop
  | wildcard {alone atScope : Bool} : IsConfined alone atScope .wildcard
  | scope {alone atScope : Bool} : IsConfined alone atScope .scope
  | kind {alone atScope : Bool} (wanted : Kind) : IsConfined alone atScope (.kind wanted)
  | attr {alone atScope : Bool} (test : AttributeTest) : IsConfined alone atScope (.attr test)
  | compound {alone atScope : Bool} {parts : List Selector}
      (hparts : ∀ part ∈ parts, IsConfined alone atScope part) :
      IsConfined alone atScope (.compound parts)
  | not {alone atScope : Bool} {options : List Selector}
      (hoptions : ∀ option ∈ options, IsConfined alone atScope option) :
      IsConfined alone atScope (.not options)
  | any {alone atScope : Bool} {options : List Selector}
      (hoptions : ∀ option ∈ options, IsConfined alone atScope option) :
      IsConfined alone atScope (.any options)
  | has {alone atScope : Bool} {options : List Selector}
      (hoptions : ∀ option ∈ options, IsConfined false false option) :
      IsConfined alone atScope (.has options)
  | upward {alone atScope : Bool} {combinator : Combinator} {left right : Selector}
      (hcombinator : combinator = .child ∨ combinator = .descendant)
      (hleft : IsConfined alone true left) (hright : IsConfined alone false right) :
      IsConfined alone atScope (.combine combinator left right)
  | aside {alone atScope : Bool} {combinator : Combinator} {left right : Selector}
      (hcombinator : combinator = .sibling ∨ combinator = .adjacent)
      (hbelow : alone = true ∨ atScope = false)
      (hleft : IsConfined alone false left) (hright : IsConfined alone atScope right) :
      IsConfined alone atScope (.combine combinator left right)

theorem IsConfined.isStructural (hconfined : IsConfined alone atScope selector) :
    selector.IsStructural := by
  induction hconfined with
  | wildcard => exact .wildcard
  | scope => exact .scope
  | kind wanted => exact .kind wanted
  | attr test => exact .attr test
  | compound _ ih => exact .compound ih
  | not _ ih => exact .not ih
  | any _ ih => exact .any ih
  | has _ ih => exact .has ih
  | upward _ _ _ ihleft ihright => exact .combine _ ihleft ihright
  | aside _ _ _ _ ihleft ihright => exact .combine _ ihleft ihright

section Facing

variable (hleft : left.IsBuilt) (hright : right.IsBuilt) (hpairing : left.IsPairing right pair)

include hleft hright hpairing

/-- A search below two partners answers alike when its options do on facing nodes below them. -/
theorem holds_has_eq (hpair : pair top top') (hlt : top < left.size) (hlt' : top' < right.size)
    (hoptions : ∀ option ∈ options, ∀ id id', id ≠ top →
      Tree.Facing left right top top' id id' →
      option.holds left (some top) id = option.holds right (some top') id')
    (scope scope' : Option NodeId) :
    (has options).holds left scope top = (has options).holds right scope' top' := by
  rw [holds, holds, Bool.eq_iff_iff]
  simp only [List.any_eq_true, hleft.mem_descendants_iff hlt, hright.mem_descendants_iff hlt']
  refine Tree.Facing.exists_above_iff hleft hright hpairing hpair fun id id' hne hfacing => ?_
  rw [someHolds_congr fun option hoption => hoptions option hoption id id' hne hfacing]

/-- A confined selector does not tell facing nodes apart. -/
theorem IsConfined.holds_eq (hconfined : IsConfined alone atScope selector)
    (hpair : pair top top') (hlt : top < left.size) (hlt' : top' < right.size)
    (halone : alone = true →
      (left.precedingSiblings top).ids = [] ∧ (right.precedingSiblings top').ids = [])
    (hbelow : atScope = false → id ≠ top) (hfacing : Tree.Facing left right top top' id id') :
    selector.holds left (some top) id = selector.holds right (some top') id' := by
  have hpartners := hfacing.partners hleft hright hpairing hpair
  induction hconfined generalizing top top' id id' with
  | wildcard => rw [holds, holds]
  | scope =>
      rw [holds, holds, Bool.eq_iff_iff, beq_iff_eq, beq_iff_eq, Option.some_inj, Option.some_inj,
        eq_comm, hfacing.eq_top_iff hleft hright, eq_comm]
  | kind wanted => rw [holds, holds, hpairing.kind_eq hpartners]
  | attr test => rw [holds, holds, hpairing.test_holds_eq hpartners]
  | compound _ ih =>
      rw [holds, holds]
      exact allHold_congr fun part hpart =>
        ih part hpart hpair hlt hlt' halone hbelow hfacing hpartners
  | not _ ih =>
      rw [holds, holds, someHolds_congr fun option hoption =>
        ih option hoption hpair hlt hlt' halone hbelow hfacing hpartners]
  | any _ ih =>
      rw [holds, holds]
      exact someHolds_congr fun option hoption =>
        ih option hoption hpair hlt hlt' halone hbelow hfacing hpartners
  | has _ ih =>
      have hlt := hfacing.lt_size hleft hlt
      have hlt' := hfacing.symm.lt_size hright hlt'
      refine holds_has_eq hleft hright hpairing hpartners hlt hlt' ?_ _ _
      exact fun option hoption _ _ hne hinner => ih option hoption hpartners hlt hlt' (by simp)
        (fun _ => hne) hinner (hinner.partners hleft hright hpairing hpartners)
  | @upward _ _ _ before _ hcombinator _ _ ihleft ihright =>
      have habove : ∀ above above', Tree.Facing left right top top' above above' →
          before.holds left (some top) above = before.holds right (some top') above' :=
        fun _ _ habove => ihleft hpair hlt hlt' halone (by simp) habove
          (habove.partners hleft hright hpairing hpair)
      by_cases hne : id = top
      · have hne' := (hfacing.eq_top_iff hleft hright).mp hne
        rcases hcombinator with rfl | rfl <;>
          simp [holds, hne, hne', Tree.parentInScope?, Tree.ancestorsInScope]
      · have hafter := ihright hpair hlt hlt' halone (fun _ => hne) hfacing hpartners
        rcases hcombinator with rfl | rfl
        · simp only [holds, hafter,
            any_congr_of_rel (hfacing.rel_parentInScope? hleft hright) habove]
        · simp only [holds, hafter,
            any_congr_of_forall₂ (hfacing.forall₂_ancestorsInScope hleft hright) habove]
  | @aside _ _ _ before _ hcombinator hexempt _ _ ihleft ihright =>
      by_cases hne : id = top
      · -- Only a scope without siblings is asked for them.
        have hne' := (hfacing.eq_top_iff hleft hright).mp hne
        obtain ⟨hnone, hnone'⟩ := halone (hexempt.resolve_right fun h => hbelow h hne)
        rcases hcombinator with rfl | rfl <;>
          simp [holds, hne, hne', NodeList.last?, hnone, hnone']
      · have hsiblings :=
          hfacing.forall₂_precedingSiblings hleft hright hpairing hpair hne
        have hbefore : ∀ sibling sibling',
            sibling ≠ top ∧ Tree.Facing left right top top' sibling sibling' →
            before.holds left (some top) sibling = before.holds right (some top') sibling' :=
          fun _ _ hsibling => ihleft hpair hlt hlt' halone (fun _ => hsibling.1) hsibling.2
            (hsibling.2.partners hleft hright hpairing hpair)
        have hafter := ihright hpair hlt hlt' halone (fun _ => hne) hfacing hpartners
        rcases hcombinator with rfl | rfl
        · simp only [holds, hafter, any_congr_of_forall₂ hsiblings hbefore]
        · simp only [holds, hafter, NodeList.last?,
            any_congr_of_rel (rel_getLast? hsiblings) hbefore]

end Facing

/-- Equal subtrees have equal answers to a `:has` that is confined. -/
theorem isMatch_has_eq {drafts drafts' : List NodeDraft} {root root' : NodeId}
    {source source' : String} (hbuild : Tree.build? drafts root source = .ok left)
    (hbuild' : Tree.build? drafts' root' source' = .ok right) (hlt : id < left.size)
    (hlt' : id' < right.size) (hsame : left.SameSubtree id right id')
    (hconfined : ∀ option ∈ options, IsConfined alone false option)
    (halone : alone = true →
      (left.precedingSiblings id).ids = [] ∧ (right.precedingSiblings id').ids = []) :
    (has options).isMatch left id = (has options).isMatch right id' := by
  have hleft := Tree.isBuilt_of_build? hbuild
  have hright := Tree.isBuilt_of_build? hbuild'
  obtain ⟨pair, hpairing, hpair⟩ := hsame
  exact holds_has_eq hleft hright hpairing hpair hlt hlt' (fun option hoption _ _ hne hfacing =>
    (hconfined option hoption).holds_eq hleft hright hpairing hpair hlt hlt' halone
      (fun _ => hne) hfacing) _ _

/-! ## Beside a scope -/

/-- The arena of two statements that are the same. -/
def twiceArena : List NodeDraft :=
  [ ⟨.identifier, ⟨0, 1⟩, [("name", .value (.text "a"))]⟩
  , ⟨.expressionStatement, ⟨0, 2⟩, [("expression", .node 0)]⟩
  , ⟨.identifier, ⟨2, 3⟩, [("name", .value (.text "a"))]⟩
  , ⟨.expressionStatement, ⟨2, 4⟩, [("expression", .node 2)]⟩
  , ⟨.program, ⟨0, 4⟩, [("body", .list [some 1, some 3])]⟩ ]

def twiceTree : Tree := (Tree.build? twiceArena 4 "a;a;").toOption.getD default

/-- What is above a sibling of the statement from which an identifier is sought. -/
def besideScope : Selector :=
  combine .child (combine .sibling (combine .child (kind .program) (kind .expressionStatement))
    (kind .expressionStatement)) (kind .identifier)

theorem twiceTree_evaluated :
    (Tree.build? twiceArena 4 "a;a;").isOk = true ∧ twiceTree.size = 5 ∧
      (has [besideScope]).isMatch twiceTree 1 = false ∧
      (has [besideScope]).isMatch twiceTree 3 = true := by
  decide +kernel

theorem sameSubtree_twiceTree : twiceTree.SameSubtree 1 twiceTree 3 := by
  refine ⟨fun id id' => (id, id') = (1, 3) ∨ (id, id') = (0, 2), ⟨?_, ?_⟩, .inl rfl⟩
  · rintro id id' (h | h) <;> cases h <;> decide +kernel
  · rintro id id' (h | h) <;> cases h
    · exact .cons ⟨rfl, .node (.inr rfl)⟩ .nil
    · exact .cons ⟨rfl, .value _⟩ .nil

/-- Both statements have an identifier that is their child. -/
theorem isMatch_has_twiceTree :
    (has [combine .child scope (kind .identifier)]).isMatch twiceTree 1 =
      (has [combine .child scope (kind .identifier)]).isMatch twiceTree 3 := by
  obtain ⟨hok, hsize, -⟩ := twiceTree_evaluated
  have hbuild : Tree.build? twiceArena 4 "a;a;" = .ok twiceTree := eq_ok_of_isOk hok default
  have hconfined : ∀ option ∈ [combine .child scope (kind .identifier)],
      IsConfined false false option :=
    List.forall_mem_singleton.mpr (.upward (.inl rfl) .scope (.kind _))
  exact isMatch_has_eq hbuild hbuild (by simp [hsize]) (by simp [hsize]) sameSubtree_twiceTree
    hconfined (by simp)

/-- The sibling of a scope is outside of its subtree, and so is what is above the sibling. -/
theorem not_forall_isMatch_has_eq :
    ¬ ∀ (drafts drafts' : List NodeDraft) (root root' : NodeId) (source source' : String)
        (left right : Tree), Tree.build? drafts root source = .ok left →
      Tree.build? drafts' root' source' = .ok right → ∀ id < left.size, ∀ id' < right.size,
      left.SameSubtree id right id' → ∀ options : List Selector,
      (∀ option ∈ options, option.IsStructural) →
      (has options).isMatch left id = (has options).isMatch right id' := by
  intro hall
  obtain ⟨hok, hsize, hfirst, hsecond⟩ := twiceTree_evaluated
  have hbuild : Tree.build? twiceArena 4 "a;a;" = .ok twiceTree := eq_ok_of_isOk hok default
  have hstructural : besideScope.IsStructural :=
    .combine _ (.combine _ (.combine _ (.kind _) (.kind _)) (.kind _)) (.kind _)
  have hequal := hall _ _ _ _ _ _ _ _ hbuild hbuild 1 (by simp [hsize]) 3 (by simp [hsize])
    sameSubtree_twiceTree [besideScope] (List.forall_mem_singleton.mpr hstructural)
  exact absurd (hfirst.symm.trans (hequal.trans hsecond)) (by decide)

end ReactiveLint.Selector
