import ReactiveLint.Engine.Linter
import ReactiveLint.Proofs.Engine.Offers

/-!
# Which listeners react

A listener that fires on an event reacts to it once, and counts as a match of its rule,
unless the rule has had a fault before.
-/

namespace ReactiveLint

variable {file : FileContext} {rules : List ConfiguredRule} {invocation : Invocation}

namespace PlainRun

variable {run : PlainRun}

/-- What holds of a run to which `seen` has been offered. -/
structure Accounts (file : FileContext) (rules : List ConfiguredRule) (seen : List Invocation)
    (run : PlainRun) : Prop where
  configured_eq : run.rules.map (·.configured) = rules
  sublist : run.invocations.Sublist seen
  fires : ∀ invocation ∈ run.invocations, invocation.Fires rules file.tree
  complete : ∀ invocation ∈ seen, invocation.Fires rules file.tree →
    (∀ rule, run.rules[invocation.rule]? = some rule → rule.fault? = none) →
      invocation ∈ run.invocations
  matchCount : ∀ index rule, run.rules[index]? = some rule →
    rule.progress.matchCount = run.invocations.countP (·.rule == index)

theorem accounts_start (file : FileContext) (rules : List ConfiguredRule) :
    Accounts file rules [] { rules := rules.map RuleRun.start } where
  configured_eq := by simp [RuleRun.start, Function.comp_def]
  sublist := .slnil
  fires := by simp
  complete := by simp
  matchCount index rule hrule := by
    rw [List.getElem?_map, Option.map_eq_some_iff] at hrule
    obtain ⟨configured, -, rfl⟩ := hrule
    rfl

section Step

variable {seen : List Invocation} (haccounts : Accounts file rules seen run)

include haccounts

theorem Accounts.skip (hsilent : ∀ rule, run.rules[invocation.rule]? = some rule →
      rule.fault? = none → ∀ listener,
        rule.configured.rule.listeners[invocation.listener]? = some listener →
          listener.trigger.fires file.tree invocation.event = false) :
    Accounts file rules (seen ++ [invocation]) run where
  configured_eq := haccounts.configured_eq
  sublist := haccounts.sublist.trans (List.sublist_append_left seen [invocation])
  fires := haccounts.fires
  complete other hother hfires hfaults := by
    rcases List.mem_append.mp hother with hin | hin
    · exact haccounts.complete other hin hfires hfaults
    · obtain rfl := List.mem_singleton.mp hin
      obtain ⟨configured, hconfigured, listener, hlistener, htrigger⟩ := hfires
      obtain ⟨rule, hrule, rfl⟩ := RuleRun.exists_getElem? haccounts.configured_eq hconfigured
      have hsilent := hsilent rule hrule (hfaults rule hrule) listener hlistener
      exact absurd htrigger (hsilent ▸ Bool.false_ne_true)
  matchCount := haccounts.matchCount

theorem Accounts.record {rule : RuleRun} (hrule : run.rules[invocation.rule]? = some rule)
    (hfault : rule.fault? = none) {listener : Listener rule.configured.rule.State}
    (hlistener : rule.configured.rule.listeners[invocation.listener]? = some listener)
    (hfires : listener.trigger.fires file.tree invocation.event = true) :
    Accounts file rules (seen ++ [invocation])
      (run.record invocation.event invocation.toListenerId
        (rule.reacted file invocation.event.node listener)) where
  configured_eq := by
    rw [← haccounts.configured_eq]
    exact map_set_eq_map hrule rfl
  sublist := haccounts.sublist.append (List.Sublist.refl [invocation])
  fires other hother := by
    rcases List.mem_append.mp hother with hin | hin
    · exact haccounts.fires other hin
    · obtain rfl : other = invocation := List.mem_singleton.mp hin
      have hconfigured := RuleRun.getElem?_configured haccounts.configured_eq hrule
      exact ⟨rule.configured, hconfigured, listener, hlistener, hfires⟩
  complete other hother hother' hfaults := by
    rcases List.mem_append.mp hother with hin | hin
    · refine List.mem_append_left _ (haccounts.complete other hin hother' fun old hold => ?_)
      -- a rule that had a fault would not have reacted, so none has lost its fault
      by_cases hindex : invocation.rule = other.rule
      · rw [← hindex, hrule] at hold
        exact Option.some.inj hold ▸ hfault
      · exact hfaults old (by rw [PlainRun.record, List.getElem?_set_ne hindex, hold])
    · exact List.mem_append_right _ hin
  matchCount index after hafter := by
    change (run.rules.set invocation.rule _)[index]? = some after at hafter
    rw [PlainRun.record, List.countP_append]
    by_cases hindex : invocation.rule = index
    · subst hindex
      rw [List.getElem?_set_self (List.getElem?_eq_some_iff.mp hrule).1] at hafter
      obtain rfl := Option.some.inj hafter
      simp [← haccounts.matchCount _ rule hrule, RuleRun.reacted, Progress.react]
    · rw [List.getElem?_set_ne hindex] at hafter
      simp [haccounts.matchCount index after hafter, hindex]

/-- Offering an event to one more listener keeps the account. -/
theorem Accounts.listen (invocation : Invocation) :
    Accounts file rules (seen ++ [invocation])
      (run.listen file invocation.event invocation.toListenerId) := by
  rcases listen_cases file run invocation.event invocation.toListenerId with
    ⟨hsame, hsilent⟩ | ⟨rule, hrule, hfault, listener, hlistener, hfires, hreacts⟩
  · rw [hsame]
    exact haccounts.skip hsilent
  · rw [hreacts]
    exact haccounts.record hrule hfault hlistener hfires

end Step

theorem accounts_ofRules (file : FileContext) (rules : List ConfiguredRule) :
    Accounts file rules (offers file.tree rules) (ofRules file rules) :=
  ofRules_induction (accounts_start file rules) fun _ _ invocation haccounts =>
    haccounts.listen invocation

end PlainRun

/-- How the reactions of a run come about. -/
structure FileRun.Exhausts (run : FileRun) (file : FileContext) (rules : List ConfiguredRule) :
    Prop where
  /-- Reactions, faults, states and diagnostics are those of the run without an index. -/
  plain_eq : run.plain = PlainRun.ofRules file rules
  nodup : run.invocations.Nodup
  fires : ∀ invocation ∈ run.invocations,
    invocation.event ∈ file.tree.walk ∧ invocation.Fires rules file.tree
  complete : ∀ invocation, invocation.event ∈ file.tree.walk →
    invocation.Fires rules file.tree →
      (∀ rule, run.rules[invocation.rule]? = some rule → rule.fault? = none) →
        invocation ∈ run.invocations
  matchCount : ∀ index rule, run.rules[index]? = some rule →
    rule.timing.matchCount = run.invocations.countP (·.rule == index)

/-- On a built tree the run through the index makes the reactions of the run without one:
no selector matches a node of a kind that it is not filed under, every listener that fires
reacts once unless its rule is off, and a rule counts its reactions. -/
theorem FileRun.ofRules_exhausts (file : FileContext) {drafts : List NodeDraft} {root : NodeId}
    {source : String} (hbuild : Tree.build? drafts root source = .ok file.tree)
    (rules : List ConfiguredRule) :
    (ofRules file rules).Exhausts file rules ∧
      ∀ (selector : Selector) (scope : Option NodeId) (id : NodeId),
        selector.holds file.tree scope id = true →
          ∀ kinds, selector.subjectKinds? = some kinds → file.tree.kind id ∈ kinds := by
  have haccounts := PlainRun.accounts_ofRules file rules
  rw [← plain_ofRules] at haccounts
  refine ⟨⟨plain_ofRules file rules, ?_, fun invocation hmem => ?_, fun invocation hevent hfires
    hfaults => ?_, fun index rule hrule => ?_⟩, fun selector scope id hholds => ?_⟩
  · exact haccounts.sublist.nodup (nodup_offers (Tree.isBuilt_of_build? hbuild) rules)
  · exact ⟨event_mem_walk (haccounts.sublist.subset hmem), haccounts.fires invocation hmem⟩
  · refine haccounts.complete invocation (mem_offers hevent hfires) hfires fun rule hrule => ?_
    simp only [plain, List.getElem?_map, Option.map_eq_some_iff] at hrule
    obtain ⟨before, hbefore, rfl⟩ := hrule
    exact hfaults before hbefore
  · refine haccounts.matchCount index rule.plain ?_
    simp [plain, hrule]
  · exact Selector.admits_subjectKinds? selector hholds

/-- A rule that counts the identifiers it enters and, on leaving, all nodes. -/
def countingRule : Rule where
  info := default
  State := Nat × Nat
  start := (0, 0)
  listeners :=
    [ ⟨⟨"Identifier", .kind .identifier, false, some [.identifier], rfl⟩,
        fun _ _ counts _ => { state := (counts.1 + 1, counts.2) }⟩
    , ⟨{ (default : Trigger) with source := "*:exit", onExit := true },
        fun _ _ counts _ => { state := (counts.1, counts.2 + 1) }⟩ ]

theorem FileRun.ofRules_countingRule :
    ∃ tree, Tree.build? Tree.callArena 2 "f(, x)" = .ok tree ∧
      (ofRules ⟨"f.ts", tree, ⟨none⟩, Scopes.analyze tree⟩ [⟨countingRule, .warning⟩]).Exhausts
        ⟨"f.ts", tree, ⟨none⟩, Scopes.analyze tree⟩ [⟨countingRule, .warning⟩] := by
  have hbuild : Tree.build? Tree.callArena 2 "f(, x)" = .ok _ := rfl
  exact ⟨_, hbuild, (ofRules_exhausts ⟨"f.ts", _, ⟨none⟩, Scopes.analyze _⟩ hbuild _).1⟩

end ReactiveLint
