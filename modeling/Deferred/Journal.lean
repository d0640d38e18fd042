import Deferred.Failure
import Deferred.Store

/-!
# The journal

An evaluation keeps a journal of what happens, in the order in which it happens: which labelled
calculations are run, which functions are called on which values, which variables are read and
written, where failures come up, and which diagnostic events the combinators emit.

Not all of it is shown to the outside. `Entry.isReported` selects the entries that a reader of the
journal is shown; the others make statements about variables and about the origin of failures
possible. Events are diagnostics only: they are kept if somebody listens, and no outcome depends on
them.
-/

namespace Deferred

/-- How much an event matters. -/
inductive Level where
  | trace
  | debug
deriving DecidableEq, Repr

/-- The word for a level. -/
def Level.render : Level → String
  | .trace => "TRACE"
  | .debug => "DEBUG"

/-- A diagnostic event of a combinator or of a variable. -/
inductive Event where
  /-- A variable is about to be given this value. -/
  | setVariable (value : Scalar)
  | negatedOperandFailed
  | signumOperandFailed
  | conditionFailed
  /-- The initial value of a fold failed, and none of its operands runs. -/
  | initialFailed (operands : Nat)
  /-- All operands have run, and this many of them failed. -/
  | operandsFailed (failures : Nat)
  /-- The reducing function of a fold failed at this step, counted from zero. -/
  | stepFailed (step : Nat) (failure : Failure)

namespace Event

/-- How much an event matters. -/
def level : Event → Level
  | .operandsFailed _ => .debug
  | .stepFailed _ _ => .debug
  | _ => .trace

/-- What an event says. -/
def message : Event → String
  | .setVariable _ => "set variable"
  | .negatedOperandFailed => "negated operand failed"
  | .signumOperandFailed => "signum operand failed"
  | .conditionFailed => "condition failed, skipping both branches"
  | .initialFailed _ => "initial value failed, skipping operands"
  | .operandsFailed _ => "aggregating operand failures"
  | .stepFailed _ _ => "reducing step failed"

/-- The particulars of an event, each with its name. -/
def fields : Event → List (String × String)
  | .setVariable value => [("value", value.render)]
  | .initialFailed operands => [("operands", toString operands)]
  | .operandsFailed failures => [("failures", toString failures)]
  | .stepFailed step failure => [("err", failure.render), ("step", toString step)]
  | _ => []

end Event

/-- Where a failure comes up that no combinator has put together from other failures. -/
inductive Origin where
  | failing
  | supplied
  | reducer
deriving DecidableEq, Repr

/-- Something that happened during an evaluation. -/
inductive Entry where
  | evaluated (label : String)
  /-- A binary function was called. Functions of the library itself have no name. -/
  | applied (name : Option String) (lhs rhs : Scalar)
  /-- A reducing function was called. Functions of the library itself have no name. -/
  | reduced (name : Option String) (accumulated next : Scalar)
  | event (event : Event)
  | raised (origin : Origin) (failure : Failure)
  | created {kind : Kind} (source : Variable kind) (value : kind.Value)
  | read {kind : Kind} (source : Variable kind) (value : kind.Value)
  | wrote {kind : Kind} (target : Variable kind) (value : kind.Value)

namespace Entry

/-- Whether an entry is a diagnostic event. -/
def isEvent : Entry → Bool
  | .event _ => true
  | _ => false

/-- Whether an entry is shown to the outside: labelled calculations, calls of named functions, and
events. -/
def isReported : Entry → Bool
  | .evaluated _ => true
  | .applied name _ _ => name.isSome
  | .reduced name _ _ => name.isSome
  | .event _ => true
  | _ => false

end Entry

/-- What the journal keeps of an event, depending on whether somebody listens. -/
def Event.entries (tracing : Bool) (event : Event) : List Entry :=
  if tracing then [.event event] else []

end Deferred
