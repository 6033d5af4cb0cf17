import ReactiveLint.Rules.Effects
import ReactiveLint.Rules.Errors
import ReactiveLint.Rules.Imports
import ReactiveLint.Rules.Names
import ReactiveLint.Rules.Subjects

/-!
# The rule set

All rules in the order of their names, and how to find one.
-/

namespace ReactiveLint

open Rules in
def ruleSet : List BuiltInRule :=
  [ banObservables, banOperators, finnish, just, pluginImport, noAsyncSubscribe, noCompat
  , noConnectable, noCreate, noCyclicAction, noExplicitGenerics, noExposedSubjects, noFinnish
  , noIgnoredError, noIgnoredNotifier, noIgnoredObservable, noIgnoredReplayBuffer
  , noIgnoredSubscribe, noIgnoredSubscription, noIgnoredTakewhileValue, noImplicitAnyCatch
  , noIndex, noInternal, noNestedSubscribe, noRedundantNotify, noSharereplay, noSubclass
  , noSubjectUnsubscribe, noSubjectValue, noSubscribeHandlers, noTopromise, noUnboundMethods
  , noUnsafeCatch, noUnsafeFirst, noUnsafeSubjectNext, noUnsafeSwitchmap, noUnsafeTakeuntil
  , preferObserver, suffixSubjects, throwErrorRule ]

namespace RuleSet

/-- The descriptions of all rules. -/
def infos : List RuleInfo := ruleSet.map (·.info)

def names : List String := infos.map (·.name)

def find? (name : String) : Option BuiltInRule := ruleSet.find? (·.info.name == name)

def info? (name : String) : Option RuleInfo := (find? name).map (·.info)

/-- Makes a rule of the set from its options. -/
def make (name : String) (options : Json) : Except ConfigError Rule :=
  match find? name with
  | some entry => entry.make options
  | none => .error (.unknownRule name)

end RuleSet

end ReactiveLint
