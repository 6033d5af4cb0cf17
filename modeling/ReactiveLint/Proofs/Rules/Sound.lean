import ReactiveLint.Proofs.Engine.Cause
import ReactiveLint.Proofs.Fix.InOrder
import ReactiveLint.Proofs.Rules.BuiltIn
import ReactiveLint.Proofs.Syntax.Built

/-!
# Rules without faults

A report without edits is accepted when the rule has its message, and the edits that put
a text in the place of a node or around it make a fix on every built tree.  A rule that
makes no other reports never ends in a fault.  Its reports also keep to the source and to
what the rule says of itself: only a rule that claims to propose fixes proposes any.
-/

namespace ReactiveLint

variable {info : RuleInfo} {ids : List String} {tree : Tree} {report : Report} {source : String}
  {edits : List Edit} {rule : Rule}

/-! ## Reports -/

theorem Tree.IsBuilt.fitsIn_span (htree : tree.IsBuilt) (id : NodeId) :
    (tree.span id).FitsIn (Text.byteLength tree.source.toList) := by
  by_cases hid : id < tree.size
  · exact htree.span_fitsIn hid
  · have hdefault : tree.span id = ⟨0, 0⟩ := by
      rw [Tree.span, Tree.node, Array.getD_eq_getD_getElem?,
        Array.getElem?_eq_none_iff.mpr (Nat.le_of_not_lt hid)]
      rfl
    rw [hdefault]
    exact ⟨Nat.le_refl 0, Nat.zero_le _⟩

/-- A report that lies in the source and proposes only what its rule claims to propose. -/
structure Report.Befits (report : Report) (info : RuleInfo) (tree : Tree) : Prop where
  span_fitsIn : report.span.FitsIn (Text.byteLength tree.source.toList)
  fixable : report.fix ≠ none → info.fixable = true
  hasSuggestions : report.suggestions ≠ [] → info.hasSuggestions = true

/-- A report that becomes a diagnostic, and one that befits its rule. -/
structure Report.IsSound (report : Report) (info : RuleInfo) (tree : Tree) : Prop
    extends report.IsAccepted info tree.source, report.Befits info tree

/-- A report of one of some messages in a tree, without edits. -/
structure Report.Tells (report : Report) (tree : Tree) (ids : List String) : Prop where
  messageId_mem : report.messageId ∈ ids
  span_fitsIn : tree.IsBuilt → report.span.FitsIn (Text.byteLength tree.source.toList)
  fix_eq : report.fix = none
  suggestions_eq : report.suggestions = []

namespace Report

@[simp]
theorem tells_report_iff {messageId : String} {node : NodeId} :
    (tree.report messageId node).Tells tree ids ↔ messageId ∈ ids :=
  ⟨fun htells => htells.messageId_mem, fun hmem => ⟨hmem, fun htree => htree.fitsIn_span node,
    rfl, rfl⟩⟩

@[simp]
theorem tells_withEntry_iff {key value : String} :
    (report.withEntry key value).Tells tree ids ↔ report.Tells tree ids :=
  ⟨fun ⟨hmem, hspan, hfix, hsuggestions⟩ => ⟨hmem, hspan, hfix, hsuggestions⟩,
    fun ⟨hmem, hspan, hfix, hsuggestions⟩ => ⟨hmem, hspan, hfix, hsuggestions⟩⟩

theorem message?_ne_none_iff {messageId : String} :
    info.message? messageId ≠ none ↔ messageId ∈ info.messages.map (·.1) := by
  rw [RuleInfo.message?, ne_eq, List.lookup_eq_none_iff]
  simp

theorem Tells.isSound (htells : report.Tells tree ids) (htree : tree.IsBuilt)
    (hids : ids ⊆ info.messages.map (·.1)) : report.IsSound info tree where
  message := message?_ne_none_iff.mpr (hids htells.messageId_mem)
  fix edits hedits := by
    rw [htells.fix_eq] at hedits
    cases hedits
  suggestion given hgiven := by
    rw [htells.suggestions_eq] at hgiven
    cases hgiven
  span_fitsIn := htells.span_fitsIn htree
  fixable hfix := absurd htells.fix_eq hfix
  hasSuggestions hsuggestions := absurd htells.suggestions_eq hsuggestions

/-- Reports of some messages, without edits.  The lemmas below take this apart along the
ways in which checks put reports together. -/
def AllTell (reports : List Report) (tree : Tree) (ids : List String) : Prop :=
  ∀ report ∈ reports, report.Tells tree ids

section AllTell

variable {A : Type} {items : List A} {reports more : List Report} {first second : Option Report}
  {given : Option A}

@[simp]
theorem allTell_nil : AllTell [] tree ids := fun _ hreport => absurd hreport List.not_mem_nil

@[simp]
theorem allTell_cons_iff :
    AllTell (report :: reports) tree ids ↔ report.Tells tree ids ∧ AllTell reports tree ids :=
  List.forall_mem_cons

@[simp]
theorem allTell_ite_iff {condition : Prop} [Decidable condition] :
    AllTell (if condition then reports else more) tree ids ↔
      (condition → AllTell reports tree ids) ∧ (¬ condition → AllTell more tree ids) := by
  split <;> simp [*]

@[simp]
theorem allTell_toList_ite_iff {condition : Prop} [Decidable condition] :
    AllTell (if condition then first else second).toList tree ids ↔
      (condition → AllTell first.toList tree ids) ∧
        (¬ condition → AllTell second.toList tree ids) := by
  split <;> simp [*]

@[simp]
theorem allTell_toList_bind_iff {next : A → Option Report} :
    AllTell (given.bind next).toList tree ids ↔
      ∀ item, given = some item → AllTell (next item).toList tree ids := by
  cases given <;> simp

@[simp]
theorem allTell_map_iff {write : A → Report} :
    AllTell (items.map write) tree ids ↔ ∀ item ∈ items, (write item).Tells tree ids := by
  simp [AllTell]

@[simp]
theorem allTell_filterMap_iff {write : A → Option Report} :
    AllTell (items.filterMap write) tree ids ↔
      ∀ item ∈ items, AllTell (write item).toList tree ids := by
  induction items with
  | nil => simp
  | cons item items ih => cases hwrite : write item <;> simp [hwrite, ih]

@[simp]
theorem allTell_flatMap_iff {write : A → List Report} :
    AllTell (items.flatMap write) tree ids ↔ ∀ item ∈ items, AllTell (write item) tree ids := by
  simp only [AllTell, List.mem_flatMap, forall_exists_index, and_imp]
  exact ⟨fun hall item hitem report => hall report item hitem,
    fun hall report item hitem => hall item hitem report⟩

end AllTell

theorem isSound_report (htree : tree.IsBuilt) {messageId : String}
    (hknown : messageId ∈ info.messages.map (·.1)) (node : NodeId) :
    (tree.report messageId node).IsSound info tree :=
  (tells_report_iff.mpr hknown).isSound htree (List.Subset.refl _)

theorem IsAccepted.fixedBy (haccepted : report.IsAccepted info source)
    (hmakes : ∃ fix, Makes source edits fix) : (report.fixedBy edits).IsAccepted info source where
  message := haccepted.message
  fix other hother := by
    obtain rfl : edits = other := Option.some.inj hother
    exact hmakes
  suggestion := haccepted.suggestion

theorem IsAccepted.suggesting (haccepted : report.IsAccepted info source) {messageId : String}
    (hknown : messageId ∈ info.messages.map (·.1)) (hmakes : ∃ fix, Makes source edits fix) :
    (report.suggesting messageId edits).IsAccepted info source where
  message := haccepted.message
  fix := haccepted.fix
  suggestion given hgiven := by
    rcases List.mem_append.mp hgiven with hgiven | hgiven
    · exact haccepted.suggestion given hgiven
    · obtain rfl := List.mem_singleton.mp hgiven
      exact ⟨message?_ne_none_iff.mpr hknown, hmakes⟩

theorem Befits.fixedBy (hbefits : report.Befits info tree) (hfixable : info.fixable = true)
    (edits : List Edit) : (report.fixedBy edits).Befits info tree :=
  ⟨hbefits.span_fitsIn, fun _ => hfixable, hbefits.hasSuggestions⟩

theorem Befits.suggesting (hbefits : report.Befits info tree)
    (hsuggests : info.hasSuggestions = true) (messageId : String) (edits : List Edit) :
    (report.suggesting messageId edits).Befits info tree :=
  ⟨hbefits.span_fitsIn, hbefits.fixable, fun _ => hsuggests⟩

theorem IsSound.fixedBy (hsound : report.IsSound info tree) (hfixable : info.fixable = true)
    (hmakes : ∃ fix, Makes tree.source edits fix) : (report.fixedBy edits).IsSound info tree :=
  ⟨hsound.toIsAccepted.fixedBy hmakes, hsound.toBefits.fixedBy hfixable edits⟩

theorem IsSound.suggesting (hsound : report.IsSound info tree)
    (hsuggests : info.hasSuggestions = true) {messageId : String}
    (hknown : messageId ∈ info.messages.map (·.1))
    (hmakes : ∃ fix, Makes tree.source edits fix) :
    (report.suggesting messageId edits).IsSound info tree :=
  ⟨hsound.toIsAccepted.suggesting hknown hmakes,
    hsound.toBefits.suggesting hsuggests messageId edits⟩

end Report

/-! ## Edits of a node -/

namespace Tree.IsBuilt

variable (htree : tree.IsBuilt)

include htree

theorem makes_replaceNode (id : NodeId) (text : String) :
    ∃ fix, Report.Makes tree.source [tree.replaceNode id text] fix := by
  refine ⟨_, Fix.InOrder.ofEdits? ⟨?_, List.pairwise_singleton _ _⟩ (List.cons_ne_nil _ _)⟩
  simpa [replaceNode] using htree.fitsIn_span id

theorem makes_insertBefore (id : NodeId) (text : String) :
    ∃ fix, Report.Makes tree.source [tree.insertBefore id text] fix := by
  have hspan := htree.fitsIn_span id
  refine ⟨_, Fix.InOrder.ofEdits? ⟨?_, List.pairwise_singleton _ _⟩ (List.cons_ne_nil _ _)⟩
  simpa [insertBefore, Span.point, Span.FitsIn] using Nat.le_trans hspan.1 hspan.2

theorem makes_insertAfter (id : NodeId) (text : String) :
    ∃ fix, Report.Makes tree.source [tree.insertAfter id text] fix := by
  have hspan := htree.fitsIn_span id
  refine ⟨_, Fix.InOrder.ofEdits? ⟨?_, List.pairwise_singleton _ _⟩ (List.cons_ne_nil _ _)⟩
  simpa [insertAfter, Span.point, Span.FitsIn] using hspan.2

theorem makes_insertAround (id : NodeId) (before after : String) :
    ∃ fix, Report.Makes tree.source [tree.insertBefore id before, tree.insertAfter id after]
      fix := by
  have hspan := htree.fitsIn_span id
  refine ⟨_, Fix.InOrder.ofEdits? ⟨?_, ?_⟩ (List.cons_ne_nil _ _)⟩
  · simp [insertBefore, insertAfter, Span.point, Span.FitsIn, hspan.2,
      Nat.le_trans hspan.1 hspan.2]
  · simpa [insertBefore, insertAfter, Span.point] using hspan.1

end Tree.IsBuilt

/-! ## Checks, handlers and rules -/

/-- A check that reports nothing but some messages, without edits. -/
def Check.Tells (check : Check) (ids : List String) : Prop :=
  ∀ file node, Report.AllTell (check file node) file.tree ids

/-- On a built tree no reaction of a handler ends in a fault, and all its reports are sound. -/
def Handler.IsSound {State : Type} (react : Handler State) (info : RuleInfo) : Prop :=
  ∀ file : FileContext, file.tree.IsBuilt → ∀ earlier state node,
    (react file earlier state node).fault = none ∧
      ∀ report ∈ (react file earlier state node).reports, report.IsSound info file.tree

/-- A handler that reports nothing but some messages, without edits, and never gives up. -/
def Handler.Tells {State : Type} (react : Handler State) (ids : List String) : Prop :=
  ∀ file earlier state node, (react file earlier state node).fault = none ∧
    Report.AllTell (react file earlier state node).reports file.tree ids

theorem Handler.Tells.isSound {State : Type} {react : Handler State} (htells : react.Tells ids)
    (hids : ids ⊆ info.messages.map (·.1)) : react.IsSound info := by
  intro file htree earlier state node
  obtain ⟨hfault, hreports⟩ := htells file earlier state node
  exact ⟨hfault, fun report hreport => (hreports report hreport).isSound htree hids⟩

theorem Check.Tells.handler {check : Check} (htells : check.Tells ids) : check.handler.Tells ids :=
  fun file _ _ node => ⟨rfl, htells file node⟩

def Rule.IsSound (rule : Rule) : Prop :=
  ∀ listener ∈ rule.listeners, Handler.IsSound listener.react rule.info

theorem Progress.diagnoseAll_snd_eq_none {file : FileContext} {severity : Severity}
    {reports : List Report}
    (haccepted : ∀ report ∈ reports, report.IsAccepted info file.tree.source) :
    (diagnoseAll file info severity reports).2 = none := by
  have hmade : ∀ report ∈ reports, ∃ diagnostic, report.IsDiagnosis info severity file.path
      file.tree.source diagnostic := by
    intro report hreport
    obtain ⟨diagnostic, hdiagnostic⟩ :=
      (Report.exists_diagnose_iff severity file.path).mpr (haccepted report hreport)
    exact ⟨diagnostic, Report.diagnose_eq_ok_iff.mp hdiagnostic⟩
  obtain ⟨made, hmade⟩ := exists_forall₂_iff.mpr hmade
  rw [diagnoseAll_eq_none_iff.mpr hmade]

theorem Rule.IsSound.faultsBy (hsound : rule.IsSound) {file : FileContext}
    (htree : file.tree.IsBuilt) : rule.FaultsBy file fun _ _ _ => False := by
  intro index listener hlistener severity earlier state node fault
  obtain ⟨hfault, hreports⟩ :=
    hsound listener (List.mem_of_getElem? hlistener) file htree earlier state node
  have haccepted := fun report hreport => (hreports report hreport).toIsAccepted
  rw [Reaction.fault?, Progress.diagnoseAll_snd_eq_none haccepted, hfault]
  simp

theorem Rule.isSound_of_handlers {State : Type} {start : State}
    {handlers : List (String × Handler State)}
    (hsound : ∀ entry ∈ handlers, Handler.IsSound entry.2 info)
    (hrule : ofHandlers? info State start handlers = .ok rule) : rule.IsSound := by
  obtain ⟨listeners, rfl, hreacts⟩ := exists_listeners hrule
  intro listener hlistener
  have hreact : listener.react ∈ handlers.map (·.2) := by
    rw [← hreacts]
    exact List.mem_map_of_mem hlistener
  obtain ⟨entry, hentry, heq⟩ := List.mem_map.mp hreact
  rw [← heq]
  exact hsound entry hentry

namespace BuiltInRule

/-- Every rule that is made from an entry of the rule set is sound. -/
def IsSound (entry : BuiltInRule) : Prop :=
  ∀ options rule, entry.make options = .ok rule → rule.IsSound

theorem isSound_ofHandlers {State : Type} {start : State}
    {handlers : List (String × Handler State)}
    (hsound : ∀ entry ∈ handlers, Handler.IsSound entry.2 info) :
    (ofHandlers info State start handlers).IsSound := by
  intro options rule hmake
  simp only [ofHandlers] at hmake
  split at hmake
  · exact Rule.isSound_of_handlers hsound (Options.makeRule_eq_ok hmake)
  · cases hmake

/-- Without edits it is enough that the rule has the messages. -/
theorem isSound_ofHandlers_tells (ids : List String) {State : Type} {start : State}
    {handlers : List (String × Handler State)} (hids : ids ⊆ info.messages.map (·.1))
    (htells : ∀ entry ∈ handlers, Handler.Tells entry.2 ids) :
    (ofHandlers info State start handlers).IsSound :=
  isSound_ofHandlers fun entry hentry => (htells entry hentry).isSound hids

theorem isSound_ofChecks {checks : List (String × Check)}
    (hsound : ∀ entry ∈ checks, Handler.IsSound entry.2.handler info) :
    (ofChecks info checks).IsSound := by
  intro options rule hmake
  simp only [ofChecks] at hmake
  split at hmake
  · exact Rule.isSound_of_handlers (List.forall_mem_map.mpr hsound)
      (Options.makeRule_eq_ok hmake)
  · cases hmake

theorem isSound_ofChecks_tells (ids : List String) {checks : List (String × Check)}
    (hids : ids ⊆ info.messages.map (·.1)) (htells : ∀ entry ∈ checks, entry.2.Tells ids) :
    (ofChecks info checks).IsSound :=
  isSound_ofChecks fun entry hentry => (htells entry hentry).handler.isSound hids

theorem isSound_ofSettings {Settings : Type} {settings : Json → Except ConfigError Settings}
    {checks : Settings → List (String × Check)}
    (hsound : ∀ given, ∀ entry ∈ checks given, Handler.IsSound entry.2.handler info) :
    (ofSettings info settings checks).IsSound := by
  intro options rule hmake
  simp only [ofSettings] at hmake
  split at hmake
  next given _ =>
    exact Rule.isSound_of_handlers (List.forall_mem_map.mpr (hsound given))
      (Options.makeRule_eq_ok hmake)
  · cases hmake

theorem isSound_ofSettings_tells (ids : List String) {Settings : Type}
    {settings : Json → Except ConfigError Settings} {checks : Settings → List (String × Check)}
    (hids : ids ⊆ info.messages.map (·.1))
    (htells : ∀ given, ∀ entry ∈ checks given, entry.2.Tells ids) :
    (ofSettings info settings checks).IsSound :=
  isSound_ofSettings fun given entry hentry => (htells given entry hentry).handler.isSound hids

end BuiltInRule

end ReactiveLint
