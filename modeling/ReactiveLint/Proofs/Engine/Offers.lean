import ReactiveLint.Proofs.Engine.PlainRun
import ReactiveLint.Proofs.Engine.Walk

/-!
# What a run offers to its listeners

A run without an index offers every event of the walk to every listener, once.  What
holds at the start and is kept by each offer holds at the end.
-/

namespace ReactiveLint

variable {file : FileContext} {rules : List ConfiguredRule} {tree : Tree} {invocation : Invocation}

/-- The trigger of a listener fires on an event. -/
def Invocation.Fires (invocation : Invocation) (rules : List ConfiguredRule) (tree : Tree) : Prop :=
  ∃ configured, rules[invocation.rule]? = some configured ∧
    ∃ listener, configured.rule.listeners[invocation.listener]? = some listener ∧
      listener.trigger.fires tree invocation.event = true

/-- All pairs of an event and a listener, in the order of a run. -/
def offers (tree : Tree) (rules : List ConfiguredRule) : List Invocation :=
  tree.walk.flatMap fun event => (listenerIds rules).map fun id => { id with event }

theorem nodup_listenerIds (rules : List ConfiguredRule) : (listenerIds rules).Nodup := by
  have hids : listenerIds rules = (rules.map (·.rule)).zipIdx.flatMap fun entry =>
      entry.1.triggers.zipIdx.map fun listener => ⟨entry.2, listener.2⟩ := by
    simp [listenerIds, Registration.ofRules, List.map_flatMap, Function.comp_def]
  rw [hids]
  refine nodup_flatMap_zipIdx (·.rule) ?_ ?_ _
  · rintro ⟨rule, index⟩
    refine List.Nodup.of_map (·.listener) ?_
    rw [List.map_map]
    change (rule.triggers.zipIdx.map Prod.snd).Nodup
    rw [List.zipIdx_map_snd]
    exact List.nodup_range'
  · rintro ⟨rule, index⟩ id hid
    obtain ⟨_, -, rfl⟩ := List.mem_map.mp hid
    rfl

theorem nodup_offers (htree : tree.IsBuilt) (rules : List ConfiguredRule) :
    (offers tree rules).Nodup := by
  refine List.nodup_flatMap.mpr ⟨fun event _ => ?_, ?_⟩
  · refine (nodup_listenerIds rules).map fun left right heq => ?_
    exact congrArg Invocation.toListenerId heq
  · refine htree.nodup_walk.imp fun hne invocation hleft hright => ?_
    obtain ⟨_, -, rfl⟩ := List.mem_map.mp hleft
    obtain ⟨_, -, heq⟩ := List.mem_map.mp hright
    exact hne (congrArg Invocation.event heq).symm

theorem mem_offers (hevent : invocation.event ∈ tree.walk) (hfires : invocation.Fires rules tree) :
    invocation ∈ offers tree rules := by
  obtain ⟨configured, hrule, listener, hlistener, -⟩ := hfires
  refine List.mem_flatMap.mpr ⟨invocation.event, hevent, List.mem_map.mpr
    ⟨invocation.toListenerId, List.mem_map.mpr ⟨⟨_, listener.trigger⟩, ?_, rfl⟩, rfl⟩⟩
  exact Registration.isOf_iff_mem.mpr ⟨configured, hrule, listener, hlistener, rfl⟩

theorem event_mem_walk (hmem : invocation ∈ offers tree rules) : invocation.event ∈ tree.walk := by
  obtain ⟨event, hevent, hmem⟩ := List.mem_flatMap.mp hmem
  obtain ⟨_, -, rfl⟩ := List.mem_map.mp hmem
  exact hevent

namespace PlainRun

variable {run : PlainRun} {event : Event} {id : ListenerId}

theorem ofRules_eq_foldl (file : FileContext) (rules : List ConfiguredRule) :
    ofRules file rules = (offers file.tree rules).foldl
      (fun run invocation => run.listen file invocation.event invocation.toListenerId)
      { rules := rules.map RuleRun.start } := by
  rw [ofRules, offers, List.foldl_flatMap]
  congr
  funext run event
  rw [step_eq_foldl, List.foldl_map]

/-- A listener does nothing, or it reacts for a rule without a fault. -/
theorem listen_cases (file : FileContext) (run : PlainRun) (event : Event) (id : ListenerId) :
    (run.listen file event id = run ∧
      ∀ rule, run.rules[id.rule]? = some rule → rule.fault? = none →
        ∀ listener, rule.configured.rule.listeners[id.listener]? = some listener →
          listener.trigger.fires file.tree event = false) ∨
    ∃ rule, run.rules[id.rule]? = some rule ∧ rule.fault? = none ∧
      ∃ listener, rule.configured.rule.listeners[id.listener]? = some listener ∧
        listener.trigger.fires file.tree event = true ∧
        run.listen file event id = run.record event id (rule.reacted file event.node listener) := by
  cases hrule : run.rules[id.rule]? with
  | none => exact .inl ⟨by rw [listen, hrule], by simp⟩
  | some rule =>
      cases hlistener : rule.configured.rule.listeners[id.listener]? with
      | none =>
          refine .inl ⟨by simp only [listen, hrule, hlistener], ?_⟩
          rintro _ ⟨⟩ - listener hsome
          rw [hlistener] at hsome
          cases hsome
      | some listener =>
          rw [listen_eq hrule hlistener]
          cases hreacts : rule.fault?.isNone && listener.trigger.fires file.tree event with
          | true =>
              rw [Bool.and_eq_true, Option.isNone_iff_eq_none] at hreacts
              exact .inr ⟨rule, rfl, hreacts.1, listener, hlistener, hreacts.2, rfl⟩
          | false =>
              refine .inl ⟨rfl, ?_⟩
              rintro _ ⟨⟩ hfault other hsome
              obtain rfl : listener = other := Option.some.inj (hlistener.symm.trans hsome)
              simpa [hfault] using hreacts

theorem configured_listen (file : FileContext) (run : PlainRun) (event : Event) (id : ListenerId) :
    (run.listen file event id).rules.map (·.configured) = run.rules.map (·.configured) := by
  rcases listen_cases file run event id with ⟨hsame, -⟩ | ⟨rule, hrule, -, listener, -, -, hreacts⟩
  · rw [hsame]
  · rw [hreacts]
    exact map_set_eq_map hrule rfl

/-- What the start has and each offer keeps, a run has for all offers. -/
theorem ofRules_induction {P : List Invocation → PlainRun → Prop}
    (hstart : P [] { rules := rules.map RuleRun.start })
    (hlisten : ∀ seen run (invocation : Invocation), P seen run →
      P (seen ++ [invocation]) (run.listen file invocation.event invocation.toListenerId)) :
    P (offers file.tree rules) (ofRules file rules) := by
  suffices hrest : ∀ rest seen run, P seen run →
      P (seen ++ rest) (rest.foldl
        (fun run invocation => run.listen file invocation.event invocation.toListenerId) run) by
    rw [ofRules_eq_foldl]
    exact hrest _ [] _ hstart
  intro rest
  induction rest with
  | nil => exact fun seen run hrun => by rwa [List.append_nil]
  | cons invocation rest ih =>
      intro seen run hrun
      rw [List.foldl_cons, List.append_cons]
      exact ih _ _ (hlisten seen run invocation hrun)

theorem configured_ofRules (file : FileContext) (rules : List ConfiguredRule) :
    (ofRules file rules).rules.map (·.configured) = rules := by
  refine ofRules_induction (P := fun _ run => run.rules.map (·.configured) = rules) ?_ ?_
  · simp [RuleRun.start, Function.comp_def]
  · exact fun _ run _ hrun => (configured_listen ..).trans hrun

/-- What the start of each rule has and each reaction keeps, all rules have. -/
theorem forall_rules {P : RuleRun → Prop} (hstart : ∀ configured ∈ rules, P (.start configured))
    (hreact : ∀ (rule : RuleRun) (node : NodeId) (listener : Listener rule.configured.rule.State),
      listener ∈ rule.configured.rule.listeners → P rule → P (rule.reacted file node listener)) :
    ∀ rule ∈ (ofRules file rules).rules, P rule := by
  refine ofRules_induction (P := fun _ run => ∀ rule ∈ run.rules, P rule) ?_ ?_
  · exact List.forall_mem_map.mpr hstart
  · intro seen run invocation hrun
    rcases listen_cases file run invocation.event invocation.toListenerId with
      ⟨hsame, -⟩ | ⟨rule, hrule, -, listener, hlistener, -, hreacts⟩
    · rwa [hsame]
    · rw [hreacts]
      intro other hother
      rcases List.mem_or_eq_of_mem_set hother with hin | rfl
      · exact hrun other hin
      · exact hreact rule _ listener (List.mem_of_getElem? hlistener)
          (hrun rule (List.mem_of_getElem? hrule))

end PlainRun

end ReactiveLint
