import ReactiveLint.Engine.Run
import ReactiveLint.Proofs.Selector.Subject

/-!
# The run without an index

`PlainRun` is a run as it reads: at every event every rule, and in it every listener,
is looked at in order, and reacts when its trigger fires and the rule has no fault.
A run through the index does the same, apart from the number of selectors it tests.
-/

namespace ReactiveLint

/-!
## The index of listeners

Asking the index gives the same listeners as searching all of them, whatever has been
asked before, and leaves none out that matches.
-/

section Index

variable {tree : Tree} {event : Event} {trigger : Trigger}

/-- Whether a trigger is for an event: the phase is its own and the selector matches. -/
def Trigger.fires (trigger : Trigger) (tree : Tree) (event : Event) : Bool :=
  trigger.onExit == (event.phase == .exit) && trigger.selector.isMatch tree event.node

theorem Trigger.listens_of_fires (hfires : trigger.fires tree event = true) :
    trigger.listens (tree.kind event.node) event.phase = true := by
  rw [fires, Bool.and_eq_true] at hfires
  obtain ⟨hphase, hmatch⟩ := hfires
  rw [listens, hphase, Bool.true_and, Option.all_eq_true]
  intro kinds hkinds
  rw [List.contains_iff_mem]
  exact Selector.admits_subjectKinds? trigger.selector hmatch kinds (trigger.kinds_eq ▸ hkinds)

/-- Among the listeners that are asked for, the phase is right already. -/
theorem Trigger.fires_of_listens
    (hlistens : trigger.listens (tree.kind event.node) event.phase = true) :
    trigger.fires tree event = trigger.selector.isMatch tree event.node := by
  rw [listens, Bool.and_eq_true] at hlistens
  rw [fires, hlistens.1, Bool.true_and]

theorem Registration.search_cons (registration : Registration) (registrations : List Registration)
    (kind : Kind) (phase : Phase) :
    search (registration :: registrations) kind phase =
      if registration.trigger.listens kind phase then
        registration.id :: search registrations kind phase
      else search registrations kind phase := by
  rw [search, List.filter_cons]
  split <;> rfl

namespace Dispatch

variable (dispatch : Dispatch) (kind : Kind) (phase : Phase)

theorem candidates_fst :
    (dispatch.candidates kind phase).1 =
      Registration.search dispatch.registrations kind phase := by
  rw [candidates]
  split
  next found hfound =>
    obtain ⟨before, after, hentries, -⟩ := List.lookup_eq_some_iff.mp hfound
    exact dispatch.entries_eq ((kind, phase), found) (by simp [hentries])
  next => rfl

theorem registrations_candidates :
    (dispatch.candidates kind phase).2.registrations = dispatch.registrations := by
  rw [candidates]
  split <;> rfl

end Dispatch

/-! ### Registrations and the rules that they are of -/

/-- A registration is of a listener of the rules. -/
def Registration.IsOf (registration : Registration) (rules : List ConfiguredRule) : Prop :=
  ∃ configured, rules[registration.id.rule]? = some configured ∧
    ∃ listener, configured.rule.listeners[registration.id.listener]? = some listener ∧
      listener.trigger = registration.trigger

theorem Registration.isOf_iff_mem {registration : Registration} {rules : List ConfiguredRule} :
    registration ∈ ofRules (rules.map (·.rule)) ↔ registration.IsOf rules := by
  obtain ⟨⟨rule, listener⟩, trigger⟩ := registration
  simp only [ofRules, Rule.triggers, List.mem_flatMap, List.mem_map, List.mem_zipIdx_iff_getElem?,
    List.getElem?_map, Option.map_eq_some_iff, Prod.exists, Registration.mk.injEq,
    ListenerId.mk.injEq]
  constructor
  · rintro ⟨_, index, ⟨configured, hrule, rfl⟩, trigger, position,
      ⟨reacting, hlistener, rfl⟩, ⟨rfl, rfl⟩, rfl⟩
    exact ⟨configured, hrule, reacting, hlistener, rfl⟩
  · rintro ⟨configured, hrule, reacting, hlistener, rfl⟩
    exact ⟨_, _, ⟨configured, hrule, rfl⟩, _, _, ⟨reacting, hlistener, rfl⟩, ⟨rfl, rfl⟩, rfl⟩

end Index

/-! ## The run as it reads -/

/-- A rule whose listener has reacted to a node. -/
def RuleRun.reacted (file : FileContext) (node : NodeId) (run : RuleRun)
    (listener : Listener run.configured.rule.State) : RuleRun :=
  ⟨run.configured,
    run.progress.react file run.info run.configured.severity node listener⟩

structure PlainRun where
  rules : List RuleRun
  faults : List FaultyRule := []
  invocations : List Invocation := []

namespace PlainRun

variable (file : FileContext) (rules : List ConfiguredRule)

/-- Puts down that a listener has reacted to an event and left its rule so. -/
def record (run : PlainRun) (event : Event) (id : ListenerId) (after : RuleRun) : PlainRun where
  rules := run.rules.set id.rule after
  faults := run.faults ++ after.faulty?.toList
  invocations := run.invocations ++ [{ id with event }]

/-- Lets a listener react to an event if its trigger fires and its rule has no fault. -/
def listen (event : Event) (run : PlainRun) (id : ListenerId) : PlainRun :=
  match run.rules[id.rule]? with
  | none => run
  | some rule =>
      match rule.configured.rule.listeners[id.listener]? with
      | none => run
      | some listener =>
          if rule.fault?.isNone && listener.trigger.fires file.tree event then
            run.record event id (rule.reacted file event.node listener)
          else run

/-- Goes through all listeners of all rules, in order. -/
def step (run : PlainRun) (event : Event) : PlainRun :=
  rules.zipIdx.foldl (fun run (configured, rule) =>
    configured.rule.listeners.zipIdx.foldl (fun run (_, listener) =>
      run.listen file event ⟨rule, listener⟩) run) run

def ofRules : PlainRun :=
  file.tree.walk.foldl (step file rules) { rules := rules.map RuleRun.start }

end PlainRun

variable {file : FileContext} {event : Event} {rules : List ConfiguredRule}
  {registration : Registration}

/-- A run of a rule apart from the number of selectors it has tested. -/
def RuleRun.plain (run : RuleRun) : RuleRun :=
  ⟨run.configured, { run.progress with evaluationCount := 0 }⟩

/-- What a run has done, apart from the number of selectors it has tested. -/
def FileRun.plain (run : FileRun) : PlainRun where
  rules := run.rules.map RuleRun.plain
  faults := run.faults
  invocations := run.invocations

/-- The listeners of rules in order. -/
def listenerIds (rules : List ConfiguredRule) : List ListenerId :=
  (Registration.ofRules (rules.map (·.rule))).map (·.id)

theorem PlainRun.step_eq_foldl (run : PlainRun) :
    run.step file rules event = (listenerIds rules).foldl (listen file event) run := by
  simp only [step, listenerIds, Registration.ofRules, Rule.triggers, List.zipIdx_map,
    List.flatMap_map, List.map_flatMap, List.map_map, List.foldl_flatMap, List.foldl_map,
    Function.comp_def, Prod.map_fst, Prod.map_snd, id_eq]

/-! ## One listener -/

/-- Replacing an item by one of the same image keeps the images. -/
theorem map_set_eq_map {A B : Type*} {f : A → B} {items : List A} {index : Nat} {old new : A}
    (hold : items[index]? = some old) (heq : f new = f old) :
    (items.set index new).map f = items.map f := by
  refine List.ext_getElem? fun position => ?_
  rw [List.getElem?_map, List.getElem?_map, List.getElem?_set]
  split
  next hposition =>
    subst hposition
    obtain ⟨hlt, hget⟩ := List.getElem?_eq_some_iff.mp hold
    simp [hlt, hget, heq]
  next => rfl

namespace RuleRun

variable (rule : RuleRun) (node : NodeId)

theorem configured_test (listener : Nat) :
    (rule.test file node listener).1.configured = rule.configured := by
  rw [test]
  split <;> rfl

/-- A rule with one more selector tested. -/
def tested (rule : RuleRun) : RuleRun :=
  ⟨rule.configured,
    { rule.progress with evaluationCount := rule.progress.evaluationCount + 1 }⟩

theorem test_eq {index : Nat} {listener : Listener rule.configured.rule.State}
    (hlistener : rule.configured.rule.listeners[index]? = some listener) :
    rule.test file node index =
      if listener.trigger.selector.isMatch file.tree node then
        (rule.tested.reacted file node listener, true)
      else (rule.tested, false) := by
  simp only [test, hlistener, Progress.test]
  split <;> rfl

theorem plain_tested : rule.tested.plain = rule.plain := rfl

theorem faulty?_tested : rule.tested.faulty? = rule.faulty? := rfl

/-- Reacting does not depend on how often selectors have been tested. -/
theorem plain_reacted (listener : Listener rule.configured.rule.State) :
    (rule.tested.reacted file node listener).plain = rule.plain.reacted file node listener := rfl

theorem faulty?_reacted (listener : Listener rule.configured.rule.State) :
    (rule.tested.reacted file node listener).faulty? =
      (rule.plain.reacted file node listener).faulty? := rfl

end RuleRun

theorem PlainRun.listen_eq {run : PlainRun} {id : ListenerId} {rule : RuleRun}
    {listener : Listener rule.configured.rule.State} (hrule : run.rules[id.rule]? = some rule)
    (hlistener : rule.configured.rule.listeners[id.listener]? = some listener) :
    run.listen file event id =
      if rule.fault?.isNone && listener.trigger.fires file.tree event then
        run.record event id (rule.reacted file event.node listener)
      else run := by
  simp only [listen, hrule, hlistener]

section Runs

variable {runs : List RuleRun} (hruns : runs.map (·.configured) = rules) {index : Nat}

include hruns

theorem RuleRun.getElem?_configured {run : RuleRun} (hrun : runs[index]? = some run) :
    rules[index]? = some run.configured := by
  rw [← hruns, List.getElem?_map, hrun]
  rfl

theorem RuleRun.exists_getElem? {configured : ConfiguredRule}
    (hconfigured : rules[index]? = some configured) :
    ∃ run, runs[index]? = some run ∧ run.configured = configured := by
  rw [← hruns, List.getElem?_map] at hconfigured
  exact Option.map_eq_some_iff.mp hconfigured

end Runs

section Offer

variable {run : FileRun} (hrules : run.rules.map (·.configured) = rules)

include hrules

theorem FileRun.configured_offer (id : ListenerId) :
    (run.offer file event id).rules.map (·.configured) = rules := by
  rw [← hrules, offer]
  split
  next => rfl
  next rule hrule =>
    split
    next => rfl
    next => exact map_set_eq_map hrule (rule.configured_test event.node id.listener)

theorem exists_rule_of_isOf (hof : registration.IsOf rules) :
    ∃ rule, run.rules[registration.id.rule]? = some rule ∧
      ∃ listener, rule.configured.rule.listeners[registration.id.listener]? = some listener ∧
        listener.trigger = registration.trigger := by
  obtain ⟨configured, hconfigured, hlistener⟩ := hof
  obtain ⟨rule, hrule, rfl⟩ := RuleRun.exists_getElem? hrules hconfigured
  exact ⟨rule, hrule, hlistener⟩

/-- A listener that is not asked for would not have reacted. -/
theorem FileRun.plain_listen_of_not_listens (hof : registration.IsOf rules)
    (hlistens : registration.trigger.listens (file.tree.kind event.node) event.phase = false) :
    run.plain.listen file event registration.id = run.plain := by
  obtain ⟨rule, hrule, listener, hlistener, htrigger⟩ := exists_rule_of_isOf hrules hof
  have hfires : listener.trigger.fires file.tree event = false := by
    rw [Bool.eq_false_iff]
    intro hfires
    rw [htrigger] at hfires
    simp [Trigger.listens_of_fires hfires] at hlistens
  have hrule' : run.plain.rules[registration.id.rule]? = some rule.plain := by
    simp [plain, hrule]
  rw [PlainRun.listen_eq hrule' hlistener, hfires, Bool.and_false, if_neg Bool.false_ne_true]

/-- A listener that is asked for does what it does without an index. -/
theorem FileRun.plain_offer (hof : registration.IsOf rules)
    (hlistens : registration.trigger.listens (file.tree.kind event.node) event.phase = true) :
    (run.offer file event registration.id).plain =
      run.plain.listen file event registration.id := by
  obtain ⟨rule, hrule, listener, hlistener, htrigger⟩ := exists_rule_of_isOf hrules hof
  have hfires := Trigger.fires_of_listens (htrigger ▸ hlistens)
  have hrule' : run.plain.rules[registration.id.rule]? = some rule.plain := by
    simp [plain, hrule]
  rw [offer, hrule, PlainRun.listen_eq hrule' hlistener]
  simp only [rule.test_eq event.node hlistener, hfires]
  cases hfault : rule.fault? with
  | some fault =>
      have hfault' : rule.plain.fault? = some fault := hfault
      simp [hfault']
  | none =>
      have hfault' : rule.plain.fault? = none := hfault
      cases hmatch : listener.trigger.selector.isMatch file.tree event.node with
      | false =>
          have hset := map_set_eq_map (f := RuleRun.plain) hrule rule.plain_tested
          have hfaulty : rule.faulty? = none := by rw [RuleRun.faulty?, hfault]; rfl
          simp [plain, hset, RuleRun.faulty?_tested, hfaulty]
      | true =>
          simp [PlainRun.record, plain, hfault', RuleRun.plain_reacted, RuleRun.faulty?_reacted,
            List.map_set]

end Offer

/-! ## One event and all events -/

namespace FileRun

/-- What every run of rules keeps: it is theirs, and so is its index. -/
structure Serves (run : FileRun) (rules : List ConfiguredRule) : Prop where
  configured_eq : run.rules.map (·.configured) = rules
  registrations_eq : run.dispatch.registrations = Registration.ofRules (rules.map (·.rule))

variable {run : FileRun}

theorem dispatch_offer (id : ListenerId) : (run.offer file event id).dispatch = run.dispatch := by
  rw [offer]
  split
  · rfl
  · split <;> rfl

theorem Serves.offer (hserves : run.Serves rules) (id : ListenerId) :
    (run.offer file event id).Serves rules where
  configured_eq := configured_offer hserves.configured_eq id
  registrations_eq := by rw [dispatch_offer, hserves.registrations_eq]

/-- The listeners that the search finds do what all listeners do. -/
theorem Serves.search (hserves : run.Serves rules) (registrations : List Registration)
    (hof : ∀ registration ∈ registrations, registration.IsOf rules) :
    let after := (Registration.search registrations (file.tree.kind event.node)
      event.phase).foldl (FileRun.offer file event) run
    after.Serves rules ∧
      after.plain = (registrations.map (·.id)).foldl (PlainRun.listen file event) run.plain := by
  induction registrations generalizing run with
  | nil => exact ⟨hserves, rfl⟩
  | cons registration registrations ih =>
      obtain ⟨hfirst, hrest⟩ := List.forall_mem_cons.mp hof
      rw [Registration.search_cons, List.map_cons, List.foldl_cons]
      cases hlistens : registration.trigger.listens (file.tree.kind event.node) event.phase with
      | true =>
          rw [← plain_offer hserves.configured_eq hfirst hlistens]
          exact ih (hserves.offer registration.id) hrest
      | false =>
          rw [plain_listen_of_not_listens hserves.configured_eq hfirst hlistens]
          exact ih hserves hrest

theorem Serves.step (hserves : run.Serves rules) (file : FileContext) (event : Event) :
    (run.step file event).Serves rules ∧
      (run.step file event).plain = run.plain.step file rules event := by
  let asked : FileRun := { run with
    dispatch := (run.dispatch.candidates (file.tree.kind event.node) event.phase).2 }
  have hasked : asked.Serves rules :=
    ⟨hserves.configured_eq, by
      rw [Dispatch.registrations_candidates, hserves.registrations_eq]⟩
  have hstep : run.step file event =
      ((run.dispatch.candidates (file.tree.kind event.node) event.phase).1).foldl
        (FileRun.offer file event) asked := rfl
  rw [hstep, Dispatch.candidates_fst, hserves.registrations_eq, PlainRun.step_eq_foldl,
    listenerIds]
  exact hasked.search _ fun _ => Registration.isOf_iff_mem.mp

theorem serves_start (rules : List ConfiguredRule) : (start rules).Serves rules :=
  ⟨by simp [start, RuleRun.start, Function.comp_def], rfl⟩

theorem plain_start (rules : List ConfiguredRule) :
    (start rules).plain = { rules := rules.map RuleRun.start } := by
  simp [start, plain, RuleRun.start, RuleRun.plain]

/-- Events take a run through the index as far as one without. -/
theorem Serves.foldl (hserves : run.Serves rules) (file : FileContext) (events : List Event) :
    (events.foldl (FileRun.step file) run).plain =
      events.foldl (PlainRun.step file rules) run.plain := by
  induction events generalizing run with
  | nil => rfl
  | cons event events ih =>
      obtain ⟨hnext, hplain⟩ := hserves.step file event
      rw [List.foldl_cons, List.foldl_cons, ih hnext, hplain]

/-- The run through the index does what the run without one does. -/
theorem plain_ofRules (file : FileContext) (rules : List ConfiguredRule) :
    (ofRules file rules).plain = PlainRun.ofRules file rules := by
  rw [ofRules, (serves_start rules).foldl, plain_start, PlainRun.ofRules]

theorem invocations_ofRules (file : FileContext) (rules : List ConfiguredRule) :
    (ofRules file rules).invocations = (PlainRun.ofRules file rules).invocations := by
  rw [← plain_ofRules]
  rfl

end FileRun

end ReactiveLint
