import ReactiveLint.Proofs.Engine.Offers

/-!
# Rules on their own

A run takes all rules through one walk, in turns.  `RuleRun.alone` takes one rule through
the walk and knows of no other.  Every rule of a run ends as it ends alone, and the
faults of the run are theirs.
-/

namespace ReactiveLint

variable {file : FileContext} {event : Event} {rules : List ConfiguredRule}

namespace RuleRun

/-- Lets a listener react to an event if its trigger fires and the rule has no fault. -/
def listen (file : FileContext) (event : Event) (run : RuleRun) (listener : Nat) : RuleRun :=
  match run.configured.rule.listeners[listener]? with
  | none => run
  | some found =>
      if run.fault?.isNone && found.trigger.fires file.tree event then
        run.reacted file event.node found
      else run

/-- Takes a rule through an event. -/
def attend (file : FileContext) (run : RuleRun) (event : Event) : RuleRun :=
  run.configured.rule.listeners.zipIdx.foldl
    (fun run (_, listener) => run.listen file event listener) run

/-- A rule that has gone through the walk of a file by itself. -/
def alone (file : FileContext) (configured : ConfiguredRule) : RuleRun :=
  file.tree.walk.foldl (attend file) (.start configured)

theorem configured_listen (run : RuleRun) (listener : Nat) :
    (run.listen file event listener).configured = run.configured := by
  rw [listen]
  split
  · rfl
  · split <;> rfl

theorem configured_attend (run : RuleRun) (event : Event) :
    (run.attend file event).configured = run.configured := by
  suffices hlisteners : ∀ (listeners : List (Listener run.configured.rule.State × Nat))
      (other : RuleRun), (listeners.foldl (fun run (_, listener) =>
        run.listen file event listener) other).configured = other.configured by
    exact hlisteners _ run
  intro listeners
  induction listeners with
  | nil => exact fun _ => rfl
  | cons _ listeners ih => exact fun other => (ih _).trans (configured_listen other _)

end RuleRun

/-! ## Changes to one rule -/

section Modify

variable {A B : Type*}

theorem modify_append_cons (change : A → A) (before after : List A) (item : A) :
    (before ++ item :: after).modify before.length change = before ++ change item :: after := by
  have hadd := List.modifyTailIdx_add (List.modifyHead change) 0 before (item :: after)
  simpa [List.modify] using hadd

/-- Changing each item in its turn, by its key, changes all of them. -/
theorem foldl_modify_zipIdx (key : A → B) (change : B → A → A) (before items : List A) :
    ((items.map key).zipIdx before.length).foldl
        (fun all (entry : B × Nat) => all.modify entry.2 (change entry.1)) (before ++ items) =
      before ++ items.map fun item => change (key item) item := by
  induction items generalizing before with
  | nil => rfl
  | cons item items ih =>
      rw [List.map_cons, List.zipIdx_cons, List.foldl_cons, modify_append_cons]
      have hnext := ih (before ++ [change (key item) item])
      rw [List.length_append, List.length_singleton] at hnext
      simpa only [List.append_assoc, List.singleton_append, List.map_cons] using hnext

theorem modify_of_getElem? {items : List A} {index : Nat} {item : A} (change : A → A)
    (hitem : items[index]? = some item) :
    items.modify index change = items.set index (change item) := by
  rw [List.modify_eq_set_getElem?, hitem]
  rfl

theorem set_of_getElem? {items : List A} {index : Nat} {item : A}
    (hitem : items[index]? = some item) : items.set index item = items := by
  obtain ⟨hindex, rfl⟩ := List.getElem?_eq_some_iff.mp hitem
  exact List.set_getElem_self hindex

/-- What an item gives that gave nothing before comes on top of what the others give. -/
theorem perm_flatMap_set {items : List A} {index : Nat} {old new : A} {gives : A → List B}
    (hold : items[index]? = some old) (hnothing : gives old = []) :
    ((items.set index new).flatMap gives).Perm (items.flatMap gives ++ gives new) := by
  induction items generalizing index with
  | nil => simp at hold
  | cons item items ih =>
      cases index with
      | zero =>
          obtain rfl : item = old := by simpa using hold
          rw [List.set_cons_zero, List.flatMap_cons, List.flatMap_cons, hnothing, List.nil_append]
          exact List.perm_append_comm
      | succ index =>
          rw [List.getElem?_cons_succ] at hold
          rw [List.set_cons_succ, List.flatMap_cons, List.flatMap_cons, List.append_assoc]
          exact (ih hold).append_left _

end Modify

/-! ## The rules of a run -/

namespace PlainRun

variable {run : PlainRun}

theorem rules_listen (run : PlainRun) (id : ListenerId) :
    (run.listen file event id).rules =
      run.rules.modify id.rule fun rule => rule.listen file event id.listener := by
  cases hrule : run.rules[id.rule]? with
  | none =>
      rw [listen, hrule, List.modify_eq_set_getElem?, hrule]
      rfl
  | some rule =>
      rw [modify_of_getElem? _ hrule]
      cases hlistener : rule.configured.rule.listeners[id.listener]? with
      | none =>
          simp only [listen, RuleRun.listen, hrule, hlistener]
          exact (set_of_getElem? hrule).symm
      | some listener =>
          simp only [listen_eq hrule hlistener, RuleRun.listen, hlistener]
          split
          · rfl
          · exact (set_of_getElem? hrule).symm

theorem rules_foldl_listen {B : Type*} (listeners : List (B × Nat)) (rule : Nat)
    (run : PlainRun) :
    (listeners.foldl (fun run entry => run.listen file event ⟨rule, entry.2⟩) run).rules =
      run.rules.modify rule fun run => listeners.foldl
        (fun run entry => run.listen file event entry.2) run := by
  induction listeners generalizing run with
  | nil => exact (List.modify_id ..).symm
  | cons entry listeners ih =>
      rw [List.foldl_cons, ih, rules_listen, List.modify_modify_eq]
      rfl

/-- An event takes every rule as far as it takes that rule alone. -/
theorem rules_step (hrules : run.rules.map (·.configured) = rules) (event : Event) :
    (run.step file rules event).rules = run.rules.map fun rule => rule.attend file event := by
  let change (configured : ConfiguredRule) (rule : RuleRun) : RuleRun :=
    configured.rule.listeners.zipIdx.foldl (fun run entry => run.listen file event entry.2) rule
  have hstep : ∀ (entries : List (ConfiguredRule × Nat)) (run : PlainRun),
      (entries.foldl (fun run entry => entry.1.rule.listeners.zipIdx.foldl
        (fun run listener => run.listen file event ⟨entry.2, listener.2⟩) run) run).rules =
      entries.foldl (fun all entry => all.modify entry.2 (change entry.1)) run.rules := by
    intro entries
    induction entries with
    | nil => exact fun _ => rfl
    | cons entry entries ih =>
        intro run
        rw [List.foldl_cons, List.foldl_cons, ih, rules_foldl_listen]
  refine (hstep rules.zipIdx run).trans ?_
  rw [← hrules]
  exact foldl_modify_zipIdx (·.configured) change [] run.rules

/-- Events take every rule as far as they take that rule alone. -/
theorem rules_foldl (hrules : run.rules.map (·.configured) = rules) (events : List Event) :
    (events.foldl (step file rules) run).rules =
      run.rules.map fun rule => events.foldl (RuleRun.attend file) rule := by
  induction events generalizing run with
  | nil => simp
  | cons event events ih =>
      have hnext : (run.step file rules event).rules =
          run.rules.map fun rule => rule.attend file event := rules_step hrules event
      have hconfigured : (run.step file rules event).rules.map (·.configured) = rules := by
        rw [hnext, List.map_map, ← hrules]
        exact List.map_congr_left fun rule _ => rule.configured_attend event
      rw [List.foldl_cons, ih hconfigured, hnext, List.map_map]
      rfl

theorem configured_start (rules : List ConfiguredRule) :
    (rules.map RuleRun.start).map (·.configured) = rules := by
  simp [RuleRun.start, Function.comp_def]

/-- Every rule of a run ends as it ends alone. -/
theorem rules_ofRules (file : FileContext) (rules : List ConfiguredRule) :
    (ofRules file rules).rules = rules.map (RuleRun.alone file) := by
  rw [ofRules, rules_foldl (configured_start rules), List.map_map]
  rfl

/-- The faults of a run are those that its rules end with, in some order. -/
theorem perm_faults (file : FileContext) (rules : List ConfiguredRule) :
    (ofRules file rules).faults.Perm
      ((ofRules file rules).rules.flatMap (·.faulty?.toList)) := by
  refine ofRules_induction (P := fun _ run =>
    run.faults.Perm (run.rules.flatMap (·.faulty?.toList))) ?_ ?_
  · have hstart : ∀ rule ∈ rules.map RuleRun.start, rule.faulty?.toList = [] := by
      intro rule hrule
      obtain ⟨configured, -, rfl⟩ := List.mem_map.mp hrule
      rfl
    rw [List.flatMap_eq_nil_iff.mpr hstart]
  · intro seen run invocation hrun
    rcases listen_cases file run invocation.event invocation.toListenerId with
      ⟨hsame, -⟩ | ⟨rule, hrule, hfault, listener, -, -, hreacts⟩
    · rwa [hsame]
    · have hnothing : rule.faulty?.toList = [] := by rw [RuleRun.faulty?, hfault]; rfl
      rw [hreacts, record]
      exact (hrun.append_right _).trans (perm_flatMap_set hrule hnothing).symm

end PlainRun

end ReactiveLint
