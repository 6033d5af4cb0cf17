import ReactiveLint.Proofs.Rule.Report
import ReactiveLint.Rules.Registry

/-!
# Rules of the rule set

A rule that is made from an entry of the rule set has the description of the entry, so
its name tells which entry that was.
-/

namespace ReactiveLint

variable {rule : Rule}

/-- A rule of the rule set, made from some options. -/
def Rule.IsBuiltIn (rule : Rule) : Prop :=
  ∃ name options, RuleSet.make name options = .ok rule

/-- The name of a built-in rule finds the entry that it was made from. -/
theorem Rule.IsBuiltIn.exists_entry (hbuiltIn : rule.IsBuiltIn) :
    ∃ entry options, RuleSet.find? rule.name = some entry ∧ entry.make options = .ok rule := by
  obtain ⟨name, options, hmake⟩ := hbuiltIn
  rw [RuleSet.make] at hmake
  split at hmake
  next entry hfind =>
    have hname : entry.info.name = name := by
      simpa using List.find?_some hfind
    refine ⟨entry, options, ?_, hmake⟩
    rw [Rule.name, entry.info_eq hmake, hname, hfind]
  next => cases hmake

theorem Options.makeRule_eq_ok {result : Except SelectorError Rule}
    (hmake : makeRule result = .ok rule) : result = .ok rule := by
  cases result with
  | ok made => exact congrArg Except.ok (Except.ok.inj hmake)
  | error e => cases hmake

/-- The listeners of a rule react by its handlers, in order. -/
theorem Rule.exists_listeners {info : RuleInfo} {State : Type} {start : State}
    {handlers : List (String × Handler State)}
    (hrule : ofHandlers? info State start handlers = .ok rule) :
    ∃ listeners : List (Listener State), rule = ⟨info, State, start, listeners⟩ ∧
      listeners.map (·.react) = handlers.map (·.2) := by
  rw [ofHandlers?] at hrule
  split at hrule
  next listeners hlisteners =>
    refine ⟨listeners, (Except.ok.inj hrule).symm, ?_⟩
    have hall := mapM_eq_ok_iff.mp hlisteners
    clear hlisteners hrule
    induction hall with
    | nil => rfl
    | cons hlistener _ ih =>
        simp only [Listener.on?, bind_eq_ok_iff] at hlistener
        obtain ⟨trigger, -, hlistener⟩ := hlistener
        obtain rfl := Except.ok.inj hlistener
        rw [List.map_cons, List.map_cons, ih]
  next => cases hrule

/-- A rule of one handler has one listener. -/
theorem Rule.exists_trigger_of_handler {info : RuleInfo} {State : Type} {start : State}
    {selector : String} {react : Handler State}
    (hrule : ofHandlers? info State start [(selector, react)] = .ok rule) :
    ∃ trigger, rule = ⟨info, State, start, [⟨trigger, react⟩]⟩ := by
  obtain ⟨listeners, rfl, hreacts⟩ := exists_listeners hrule
  obtain ⟨⟨trigger, _⟩, rfl, rfl⟩ := List.map_eq_singleton_iff.mp hreacts
  exact ⟨trigger, rfl⟩

/-! ## Rules without options -/

/-- The trigger for entering the nodes of a kind. -/
def Trigger.ofKind (source : String) (kind : Kind) : Trigger :=
  ⟨source, .kind kind, false, some [kind], rfl⟩

/-- A selector without the mark for leaving is for entering. -/
theorem Trigger.parse_eq_ok {source : String} {selector : Selector}
    (hmark : dropExitMark? (Text.trim source.toList) = none)
    (hsource : String.ofList (Text.trim source.toList) = source)
    (hselector : Selector.parse source = .ok selector) :
    parse source = .ok ⟨source, selector, false, _, rfl⟩ := by
  simp only [parse, hmark, hsource, hselector]
  rfl

namespace BuiltInRule

variable {info : RuleInfo} {State : Type} {start : State} {handlers : List (String × Handler State)}

theorem ofHandlers_make_null (hrule : Rule.ofHandlers? info State start handlers = .ok rule) :
    (ofHandlers info State start handlers).make .null = .ok rule := by
  simp only [ofHandlers, hrule]
  rfl

/-- A rule without options is the same from all that it accepts. -/
theorem eq_of_ofHandlers_make (hrule : Rule.ofHandlers? info State start handlers = .ok rule)
    {made : Rule} {options : Json}
    (hmake : (ofHandlers info State start handlers).make options = .ok made) : made = rule := by
  simp only [ofHandlers] at hmake
  split at hmake
  · exact Except.ok.inj ((Options.makeRule_eq_ok hmake).symm.trans hrule)
  · cases hmake

end BuiltInRule

end ReactiveLint
