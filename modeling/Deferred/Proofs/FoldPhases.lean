import Deferred.Proofs.Runs

/-!
# The three phases of a fold

A fold runs its initial value, then all its operands, and only then calls the reducing function. The
parts and the reducing function may do anything to the store, so it matters which store each of them
finds. `Reduces` says what comes of the calls of the reducing function, and `FoldsInPhases` what
comes of a fold as a whole: the outcome, the store left behind, and the journal with its events.
-/

namespace Deferred

variable {kind : Kind} {α : Type}

namespace Evaluation

/-- Calls of a reducing function that all succeed: the values that were taken up, what has been
accumulated, the store left behind and the journal. -/
inductive Accumulates (reduce : α → α → Evaluation α) (tracing : Bool) (start : α) (store : Store) :
    List α → α → Store → List Entry → Prop where
  | nil : Accumulates reduce tracing start store [] start store []
  | snoc {values : List α} {accumulated next reduced : α} {left : Store} {journal : List Entry}
      (earlier : Accumulates reduce tracing start store values accumulated left journal)
      (succeeds : ((reduce accumulated next).run tracing left).outcome = .ok reduced) :
      Accumulates reduce tracing start store (values ++ [next]) reduced
        ((reduce accumulated next).run tracing left).store
        (journal ++ ((reduce accumulated next).run tracing left).journal)

/-- What comes of reducing values from the left. Either all calls succeed, or the first one that
fails is the last one. -/
inductive Reduces (reduce : α → α → Evaluation α) (tracing : Bool) (start : α) (store : Store) :
    List α → Run α → Prop where
  | finished {values : List α} {result : α} {left : Store} {journal : List Entry}
      (steps : Accumulates reduce tracing start store values result left journal) :
      Reduces reduce tracing start store values ⟨.ok result, left, journal⟩
  | stopped {done : List α} {accumulated next : α} {left : Store} {journal : List Entry}
      {failure : Failure} (rest : List α)
      (steps : Accumulates reduce tracing start store done accumulated left journal)
      (fails : ((reduce accumulated next).run tracing left).outcome = .error failure) :
      Reduces reduce tracing start store (done ++ next :: rest)
        ⟨.error failure, ((reduce accumulated next).run tracing left).store,
          journal ++ ((reduce accumulated next).run tracing left).journal ++
            Event.entries tracing (.stepFailed done.length failure)⟩

/-- What comes of a fold. The runs of the operands are listed by `Evaluation.runs`: each one finds
the store that the one before left behind. -/
structure FoldsInPhases (reduce : α → α → Evaluation α) (initial : Evaluation α)
    (operands : List (Evaluation α)) (tracing : Bool) (store : Store) (run : Run α) : Prop where
  /-- If the initial value fails, nothing else is run, and its failure stays as it is. -/
  initialFails : ∀ failure, (initial.run tracing store).outcome = .error failure →
    run = ⟨.error failure, (initial.run tracing store).store,
      (initial.run tracing store).journal ++
        Event.entries tracing (.initialFailed operands.length)⟩
  /-- If operands fail, all of them have run, and the reducing function is not called. -/
  operandsFail : ∀ start, (initial.run tracing store).outcome = .ok start →
    let done := runs tracing (initial.run tracing store).store operands
    let failures := Outcome.failures (done.map Run.outcome)
    failures ≠ [] →
      run = ⟨.error (.aggregate failures),
        Run.storeAfter (initial.run tracing store).store done,
        (initial.run tracing store).journal ++ done.flatMap Run.journal ++
          Event.entries tracing (.operandsFailed failures.length)⟩
  /-- Otherwise the values that the operands had are reduced when all of them have run. -/
  reduces : ∀ start, (initial.run tracing store).outcome = .ok start →
    let done := runs tracing (initial.run tracing store).store operands
    Outcome.failures (done.map Run.outcome) = [] →
      ∃ values reduced,
        done.map Run.outcome = values.map .ok ∧
        Reduces reduce tracing start (Run.storeAfter (initial.run tracing store).store done) values
          reduced ∧
        run = ⟨reduced.outcome, reduced.store,
          (initial.run tracing store).journal ++ done.flatMap Run.journal ++ reduced.journal⟩

variable {reduce : α → α → Evaluation α} {tracing : Bool} {start : α} {store : Store}

/-- Whatever has been accumulated already, reducing the other values goes on from there. -/
theorem Accumulates.reduces {done : List α} {accumulated : α} {left : Store} {journal : List Entry}
    (steps : Accumulates reduce tracing start store done accumulated left journal)
    (rest : List α) :
    let run := (reduceFrom reduce done.length accumulated rest).run tracing left
    Reduces reduce tracing start store (done ++ rest)
      ⟨run.outcome, run.store, journal ++ run.journal⟩ := by
  -- The calls so far change with every step, so that the number of the next one is their number.
  induction rest generalizing done accumulated left journal with
  | nil => simpa using Reduces.finished steps
  | cons next rest ih =>
      rw [reduceFrom_cons]
      cases called : ((reduce accumulated next).run tracing left).outcome with
      | error failure =>
          have stops := Reduces.stopped rest steps called
          simpa [run_bind, run_reportingFailure_eq, called] using stops
      | ok reduced =>
          have goesOn := ih (steps.snoc called)
          simpa [run_bind, run_reportingFailure_eq, called] using goesOn

theorem reduces_reduceFrom (values : List α) :
    Reduces reduce tracing start store values
      ((reduceFrom reduce 0 start values).run tracing store) := by
  have nothing : Accumulates reduce tracing start store [] start store [] := .nil
  simpa using nothing.reduces values

theorem foldsInPhases_reduceLeft (initial : Evaluation α) (operands : List (Evaluation α)) :
    FoldsInPhases reduce initial operands tracing store
      ((reduceLeft reduce initial operands).run tracing store) where
  initialFails := by
    intro failure fails
    simp [reduceLeft, run_bind, run_reportingFailure_eq, fails]
  operandsFail := by
    intro start starts done failures nonempty
    have collected : (all operands).run tracing (initial.run tracing store).store =
        ⟨Outcome.gathered failures (Outcome.values (done.map Run.outcome)),
          Run.storeAfter (initial.run tracing store).store done,
          done.flatMap Run.journal ++ Event.ofFailures tracing failures⟩ := run_all ..
    rw [Outcome.gathered_of_ne_nil _ nonempty, Event.ofFailures_of_ne_nil _ nonempty] at collected
    simp [reduceLeft, run_bind, run_reportingFailure_eq, starts, collected, done, failures]
  reduces := by
    intro start starts done nothing
    have succeeded := Outcome.failures_eq_nil_iff.mp nothing
    have collected : (all operands).run tracing (initial.run tracing store).store =
        ⟨Outcome.gathered (Outcome.failures (done.map Run.outcome))
            (Outcome.values (done.map Run.outcome)),
          Run.storeAfter (initial.run tracing store).store done,
          done.flatMap Run.journal ++
            Event.ofFailures tracing (Outcome.failures (done.map Run.outcome))⟩ := run_all ..
    rw [nothing, Outcome.gathered_nil, Event.ofFailures_nil, List.append_nil] at collected
    refine ⟨Outcome.values (done.map Run.outcome), _, succeeded, reduces_reduceFrom _, ?_⟩
    simp [reduceLeft, run_bind, run_reportingFailure_eq, starts, collected, done]

end Evaluation

/-- A fold shows the operands that it was put together from, and folds them in three phases. Each
operand is run in the store that the operands before it left behind. -/
theorem Calculation.reduceLeft_folds_in_phases (reducer : Reducer kind) (initial : Calculation kind)
    (operands : Operands kind) (tracing : Bool) (store : Store) :
    let calculation := reduceLeft reducer initial operands
    let evaluations := operands.toList.map Calculation.evaluate
    let begun := (initial.evaluate.run tracing store).store
    let runs := Evaluation.runs tracing begun evaluations
    calculation.operands? = some operands ∧
      (∀ index, runs[index]? = operands.toList[index]?.map fun operand : Calculation kind =>
        operand.evaluate.run tracing (Run.storeAfter begun (runs.take index))) ∧
      Evaluation.FoldsInPhases reducer.call initial.evaluate evaluations tracing store
        (calculation.evaluate.run tracing store) := by
  intro calculation evaluations begun runs
  refine ⟨rfl, ?_, ?_⟩
  · intro index
    rw [Evaluation.getElem?_runs, List.getElem?_map, Option.map_map]
    rfl
  · rw [evaluate_reduceLeft]
    exact Evaluation.foldsInPhases_reduceLeft initial.evaluate evaluations

end Deferred
