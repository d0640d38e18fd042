import Deferred.Journal
import Deferred.Outcome

/-!
# Evaluations

An `Evaluation` is something that can be run against a store. It gives a value or a failure, leaves
a store behind, and keeps a journal. Running stops at the first failure; what has happened up to
there stays in the store and in the journal. `Evaluation.attempt` turns a failure into a value, so
that a combinator can go on after it.

Whether diagnostic events are listened to is an input of every run. Only `Evaluation.emit` and
`Evaluation.reportingFailure` look at it, and it changes nothing but the journal.
-/

namespace Deferred

variable {α β : Type}

/-- What came of running an evaluation. -/
structure Run (α : Type) where
  /-- The value, or the reason why there is none. -/
  outcome : Outcome α
  store : Store
  journal : List Entry

/-- Something that can be run against a store, with or without somebody listening to events. -/
@[ext]
structure Evaluation (α : Type) where
  run : (tracing : Bool) → Store → Run α

namespace Evaluation

/-- The evaluation that gives a value and does nothing else. -/
@[inline]
protected def pure (value : α) : Evaluation α :=
  ⟨fun _ store => ⟨.ok value, store, []⟩⟩

/-- Runs one evaluation and goes on with its value. If it fails, nothing else is run. -/
@[inline]
protected def bind (first : Evaluation α) (rest : α → Evaluation β) : Evaluation β :=
  ⟨fun tracing store =>
    let begun := first.run tracing store
    match begun.outcome with
    | .ok value =>
      let ended := (rest value).run tracing begun.store
      ⟨ended.outcome, ended.store, begun.journal ++ ended.journal⟩
    | .error failure => ⟨.error failure, begun.store, begun.journal⟩⟩

/-- Runs an evaluation and gives a function of its value. -/
@[inline]
protected def map (function : α → β) (evaluation : Evaluation α) : Evaluation β :=
  ⟨fun tracing store =>
    let done := evaluation.run tracing store
    ⟨done.outcome.map function, done.store, done.journal⟩⟩

instance instMonad : Monad Evaluation where
  map := Evaluation.map
  pure := Evaluation.pure
  bind := Evaluation.bind

/-- The evaluation that fails and does nothing else. -/
@[inline]
def fail (failure : Failure) : Evaluation α :=
  ⟨fun _ store => ⟨.error failure, store, []⟩⟩

/-- Gives a value or a failure that is already known, and has been noted where it came up. -/
@[inline]
def ofExcept : Outcome α → Evaluation α
  | .ok value => pure value
  | .error failure => fail failure

/-- Fails with a failure that comes up here, and keeps a note of it. -/
@[inline]
def raise (origin : Origin) (failure : Failure) : Evaluation α :=
  ⟨fun _ store => ⟨.error failure, store, [.raised origin failure]⟩⟩

/-- Gives a value, or a failure that comes up here. -/
@[inline]
def settle (origin : Origin) : Outcome α → Evaluation α
  | .ok value => pure value
  | .error failure => raise origin failure

/-- Runs an evaluation and gives its outcome as a value. It never fails. -/
@[inline]
def attempt (evaluation : Evaluation α) : Evaluation (Outcome α) :=
  ⟨fun tracing store =>
    let done := evaluation.run tracing store
    ⟨.ok done.outcome, done.store, done.journal⟩⟩

/-- Adds an entry to the journal. -/
@[inline]
def record (entry : Entry) : Evaluation Unit :=
  ⟨fun _ store => ⟨.ok (), store, [entry]⟩⟩

/-- Emits a diagnostic event, which is kept only if somebody listens. -/
@[inline]
def emit (event : Event) : Evaluation Unit :=
  ⟨fun tracing store => ⟨.ok (), store, event.entries tracing⟩⟩

/-- Runs an evaluation and, if it fails, emits an event about that. The failure stays as it is. -/
@[inline]
def reportingFailure (evaluation : Evaluation α) (event : Failure → Event) : Evaluation α :=
  ⟨fun tracing store =>
    let done := evaluation.run tracing store
    match done.outcome with
    | .ok _ => done
    | .error failure =>
      ⟨done.outcome, done.store, done.journal ++ (event failure).entries tracing⟩⟩

/-- Reads a variable. -/
@[inline]
def read {kind : Kind} (source : Variable kind) : Evaluation kind.Value :=
  ⟨fun _ store => ⟨.ok (store.read source), store, [.read source (store.read source)]⟩⟩

/-- Puts a value into a variable, and announces it first. -/
@[inline]
def write {kind : Kind} (target : Variable kind) (value : kind.Value) : Evaluation Unit := do
  emit (.setVariable (.ofValue value))
  ⟨fun _ store => ⟨.ok (), store.write target value, [.wrote target value]⟩⟩

/-- Looks up the count kept in a slot. -/
@[inline]
def count (slot : Slot) : Evaluation Nat :=
  ⟨fun _ store => ⟨.ok (store.count slot), store, []⟩⟩

/-- Keeps a count in a slot. -/
@[inline]
def setCount (slot : Slot) (count : Nat) : Evaluation Unit :=
  ⟨fun _ store => ⟨.ok (), store.setCount slot count, []⟩⟩

section Run

variable (tracing : Bool) (store : Store)

@[simp]
theorem run_pure (value : α) :
    (pure value : Evaluation α).run tracing store = ⟨.ok value, store, []⟩ := rfl

@[simp]
theorem run_map (function : α → β) (evaluation : Evaluation α) :
    (function <$> evaluation).run tracing store =
      ⟨(evaluation.run tracing store).outcome.map function, (evaluation.run tracing store).store,
        (evaluation.run tracing store).journal⟩ := rfl

theorem run_bind (first : Evaluation α) (rest : α → Evaluation β) :
    (first >>= rest).run tracing store =
      match (first.run tracing store).outcome with
      | .ok value =>
        let ended := (rest value).run tracing (first.run tracing store).store
        ⟨ended.outcome, ended.store, (first.run tracing store).journal ++ ended.journal⟩
      | .error failure =>
        ⟨.error failure, (first.run tracing store).store, (first.run tracing store).journal⟩ := rfl

/-- After a success the rest is run in the store left behind. -/
theorem run_bind_of_ok {first : Evaluation α} (rest : α → Evaluation β) {value : α}
    (succeeds : (first.run tracing store).outcome = .ok value) :
    (first >>= rest).run tracing store =
      let ended := (rest value).run tracing (first.run tracing store).store
      ⟨ended.outcome, ended.store, (first.run tracing store).journal ++ ended.journal⟩ := by
  simp [run_bind, succeeds]

/-- After a failure nothing of the rest happens. -/
theorem run_bind_of_error {first : Evaluation α} (rest : α → Evaluation β) {failure : Failure}
    (fails : (first.run tracing store).outcome = .error failure) :
    (first >>= rest).run tracing store =
      ⟨.error failure, (first.run tracing store).store, (first.run tracing store).journal⟩ := by
  simp [run_bind, fails]

@[simp]
theorem run_fail (failure : Failure) :
    (fail failure : Evaluation α).run tracing store = ⟨.error failure, store, []⟩ := rfl

@[simp]
theorem run_ofExcept (outcome : Outcome α) :
    (ofExcept outcome).run tracing store = ⟨outcome, store, []⟩ := by
  cases outcome <;> rfl

@[simp]
theorem run_raise (origin : Origin) (failure : Failure) :
    (raise origin failure : Evaluation α).run tracing store =
      ⟨.error failure, store, [.raised origin failure]⟩ := rfl

@[simp]
theorem settle_ok (origin : Origin) (value : α) : settle origin (.ok value) = pure value := rfl

@[simp]
theorem settle_error (origin : Origin) (failure : Failure) :
    (settle origin (.error failure) : Evaluation α) = raise origin failure := rfl

@[simp]
theorem run_attempt (evaluation : Evaluation α) :
    evaluation.attempt.run tracing store =
      ⟨.ok (evaluation.run tracing store).outcome, (evaluation.run tracing store).store,
        (evaluation.run tracing store).journal⟩ := rfl

@[simp]
theorem run_record (entry : Entry) :
    (record entry).run tracing store = ⟨.ok (), store, [entry]⟩ := rfl

@[simp]
theorem run_emit (event : Event) :
    (emit event).run tracing store = ⟨.ok (), store, event.entries tracing⟩ := rfl

theorem run_reportingFailure (evaluation : Evaluation α) (event : Failure → Event) :
    (evaluation.reportingFailure event).run tracing store =
      match (evaluation.run tracing store).outcome with
      | .ok _ => evaluation.run tracing store
      | .error failure =>
        ⟨.error failure, (evaluation.run tracing store).store,
          (evaluation.run tracing store).journal ++ (event failure).entries tracing⟩ := by
  cases ran : (evaluation.run tracing store).outcome <;> simp [reportingFailure, ran]

theorem run_reportingFailure_of_ok {evaluation : Evaluation α} (event : Failure → Event) {value : α}
    (succeeds : (evaluation.run tracing store).outcome = .ok value) :
    (evaluation.reportingFailure event).run tracing store = evaluation.run tracing store := by
  simp [run_reportingFailure, succeeds]

theorem run_reportingFailure_of_error {evaluation : Evaluation α} (event : Failure → Event)
    {failure : Failure} (fails : (evaluation.run tracing store).outcome = .error failure) :
    (evaluation.reportingFailure event).run tracing store =
      ⟨.error failure, (evaluation.run tracing store).store,
        (evaluation.run tracing store).journal ++ (event failure).entries tracing⟩ := by
  simp [run_reportingFailure, fails]

@[simp]
theorem run_read {kind : Kind} (source : Variable kind) :
    (read source).run tracing store =
      ⟨.ok (store.read source), store, [.read source (store.read source)]⟩ := rfl

@[simp]
theorem run_write {kind : Kind} (target : Variable kind) (value : kind.Value) :
    (write target value).run tracing store =
      ⟨.ok (), store.write target value,
        Event.entries tracing (.setVariable (.ofValue value)) ++ [.wrote target value]⟩ := rfl

@[simp]
theorem run_count (slot : Slot) :
    (count slot).run tracing store = ⟨.ok (store.count slot), store, []⟩ := rfl

@[simp]
theorem run_setCount (slot : Slot) (number : Nat) :
    (setCount slot number).run tracing store = ⟨.ok (), store.setCount slot number, []⟩ := rfl

end Run

protected theorem pure_bind (value : α) (rest : α → Evaluation β) :
    pure value >>= rest = rest value := by
  ext tracing store
  simp [run_bind]

protected theorem bind_assoc {γ : Type} (first : Evaluation α) (second : α → Evaluation β)
    (third : β → Evaluation γ) :
    first >>= second >>= third = first >>= fun value => second value >>= third := by
  ext tracing store
  cases begun : (first.run tracing store).outcome with
  | error failure => simp [run_bind, begun]
  | ok value =>
      cases next : ((second value).run tracing (first.run tracing store).store).outcome <;>
        simp [run_bind, begun, next]

protected theorem id_map (evaluation : Evaluation α) : id <$> evaluation = evaluation := by
  ext tracing store
  cases ran : evaluation.run tracing store with
  | mk outcome left journal => cases outcome <;> simp [ran, Except.map]

protected theorem bind_pure_comp (function : α → β) (evaluation : Evaluation α) :
    (evaluation >>= fun value => pure (function value)) = function <$> evaluation := by
  ext tracing store
  cases ran : (evaluation.run tracing store).outcome <;> simp [run_bind, ran, Except.map]

instance instLawfulMonad : LawfulMonad Evaluation :=
  LawfulMonad.mk' Evaluation Evaluation.id_map Evaluation.pure_bind Evaluation.bind_assoc
    (fun _ _ => rfl) (fun _ _ => rfl) (fun _ _ => rfl) Evaluation.bind_pure_comp

end Evaluation

end Deferred
