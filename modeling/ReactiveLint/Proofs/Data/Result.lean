import Mathlib.Data.List.Forall2

/-!
# Results

A computation that can fail has a result when each of its steps has one.
-/

namespace ReactiveLint

theorem map_eq_ok_iff {E A B : Type} {result : Except E A} {f : A → B} {b : B} :
    result.map f = .ok b ↔ ∃ a, result = .ok a ∧ f a = b := by
  cases result <;> simp [Except.map]

theorem eq_ok_of_isOk {E A : Type*} {result : Except E A} (hok : result.isOk = true)
    (fallback : A) : result = .ok (result.toOption.getD fallback) := by
  cases result with
  | ok value => rfl
  | error e => cases hok

theorem exists_error_iff {E A : Type*} {result : Except E A} :
    (∃ e, result = .error e) ↔ ¬ ∃ value, result = .ok value := by
  cases result <;> simp

/-- A computation of two steps has a result when both steps have one. -/
theorem bind_eq_ok_iff {E A B : Type} {first : Except E A} {next : A → Except E B}
    {result : B} :
    first >>= next = .ok result ↔ ∃ value, first = .ok value ∧ next value = .ok result := by
  cases first with
  | error e => simp [bind, Except.bind]
  | ok value => simp [bind, Except.bind]

/-- A check of every item passes when it passes for each. -/
theorem forM_eq_ok_iff {E A : Type} {check : A → Except E Unit} {items : List A} :
    items.forM check = .ok () ↔ ∀ item ∈ items, check item = .ok () := by
  rw [List.forM_eq_forM]
  induction items with
  | nil => simp [pure, Except.pure]
  | cons item items ih =>
      rw [List.forM_cons, bind_eq_ok_iff, List.forall_mem_cons, ← ih]
      exact ⟨fun ⟨(), hpair⟩ => hpair, fun hpair => ⟨(), hpair⟩⟩

theorem mapM_eq_ok_iff {E A B : Type} {step : A → Except E B} {items : List A}
    {results : List B} :
    items.mapM step = .ok results ↔
      List.Forall₂ (fun item result => step item = .ok result) items results := by
  induction items generalizing results with
  | nil => simp [pure, Except.pure, eq_comm]
  | cons item items ih =>
      rw [List.mapM_cons, bind_eq_ok_iff, List.forall₂_cons_left_iff]
      simp only [bind_eq_ok_iff, ih, pure, Except.pure, Except.ok.injEq]
      constructor
      · rintro ⟨first, hfirst, rest, hrest, rfl⟩
        exact ⟨first, rest, hfirst, hrest, rfl⟩
      · rintro ⟨first, rest, hfirst, hrest, rfl⟩
        exact ⟨first, hfirst, rest, hrest, rfl⟩

/-- Where every item has a partner, there is a list of partners. -/
theorem exists_forall₂_iff {A B : Type*} {rel : A → B → Prop} {items : List A} :
    (∃ results, List.Forall₂ rel items results) ↔ ∀ item ∈ items, ∃ result, rel item result := by
  induction items with
  | nil => simp
  | cons item items ih =>
      rw [List.forall_mem_cons, ← ih]
      constructor
      · rintro ⟨_, _ | ⟨hresult, hresults⟩⟩
        exact ⟨⟨_, hresult⟩, _, hresults⟩
      · rintro ⟨⟨result, hresult⟩, results, hresults⟩
        exact ⟨result :: results, .cons hresult hresults⟩

/-- Reading item by item takes back writing item by item. -/
theorem mapM_map_some {A B : Type} {write : A → B} {read? : B → Option A} {items : List A}
    (hreads : ∀ item ∈ items, read? (write item) = some item) :
    (items.map write).mapM read? = some items := by
  induction items with
  | nil => rfl
  | cons item items ih =>
      obtain ⟨hitem, hitems⟩ := List.forall_mem_cons.mp hreads
      rw [List.map_cons, List.mapM_cons, hitem, ih hitems]
      rfl

end ReactiveLint
