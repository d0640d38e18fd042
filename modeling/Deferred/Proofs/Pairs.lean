import Deferred.Proofs.Congruence
import Deferred.Proofs.FoldPhases

/-!
# Two operands

Two operands are run on one path, and lists of operands on another. On two operands of the same kind
both paths do the same in every respect (`Evaluation.both_eq_all`). So the sum of two operands
cannot be told apart from their addition by a binary function, but for how the calls of the
functions are noted: what is left when all operands have run is a function of their values
(`Run.calling`).

A fold of a list of one operand is different, as its initial value is run on its own. It agrees with
the binary function exactly as long as the initial value does not fail.
-/

namespace Deferred

variable {kind : Kind} {α β : Type}

/-- Whether an entry notes a call of a function of the given name. -/
def Entry.isCallOf (name : Option String) : Entry → Bool
  | .applied called _ _ => called = name
  | .reduced called _ _ => called = name
  | _ => false

/-- The view in which everything matters except calls of functions of the given name. -/
def View.besidesCalls (name : Option String) : View where
  store _ := True
  entry entry := !entry.isCallOf name

/-- A run that goes on with a function of the value, if there is one, and notes its calls. -/
def Run.calling (run : Run α) (function : α → β) (calls : α → List Entry) : Run β :=
  ⟨run.outcome.map function, run.store, run.journal ++ run.outcome.value?.elim [] calls⟩

theorem Run.matches_calling {name : Option String} (run : Run α) (function : α → β)
    {calls others : α → List Entry} (own : ∀ value, ∀ entry ∈ calls value, entry.isCallOf name)
    (other : ∀ value, ∀ entry ∈ others value, entry.isCallOf name) :
    (run.calling function calls).Matches (.besidesCalls name) (run.calling function others) := by
  refine ⟨rfl, rfl, ?_, trivial⟩
  rcases run with ⟨outcome, left, journal⟩
  cases outcome with
  | error failure => rfl
  | ok value =>
      have nothing {noted : List Entry} (called : ∀ entry ∈ noted, entry.isCallOf name) :
          noted.filter (View.besidesCalls name).entry = [] := by
        simpa [View.besidesCalls, List.filter_eq_nil_iff] using called
      simp only [calling, Outcome.value?_ok, Option.elim_some, List.filter_append,
        nothing (own value), nothing (other value)]

namespace Evaluation

theorem both_eq_all (lhs rhs : Evaluation α) :
    (fun values => [values.1, values.2]) <$> both lhs rhs = all [lhs, rhs] := by
  ext tracing store
  rw [run_map, run_both, run_all]
  simp only [runs_cons, runs_nil, List.map_cons, List.map_nil, List.flatMap_cons, List.flatMap_nil,
    Run.storeAfter_cons, Run.storeAfter_nil, List.append_nil]
  cases (lhs.run tracing store).outcome with
  | ok left =>
      cases (rhs.run tracing (lhs.run tracing store).store).outcome <;> rfl
  | error failure =>
      cases (rhs.run tracing (lhs.run tracing store).store).outcome <;> rfl

variable (name : Option String) (apply : kind.Value → kind.Value → kind.Value) (tracing : Bool)
  (store : Store)

theorem run_binary_pure (lhs rhs : Evaluation kind.Value) :
    (binary (Operation.pure name apply).call lhs rhs).run tracing store =
      ((both lhs rhs).run tracing store).calling (fun values => apply values.1 values.2)
        fun values => [.applied name (.ofValue values.1) (.ofValue values.2)] := by
  cases ran : (both lhs rhs).run tracing store with
  | mk outcome left journal =>
      cases outcome <;> simp [binary, run_bind, ran, Run.calling]

theorem run_reduceLeft_two (start : kind.Value) (lhs rhs : Evaluation kind.Value) :
    (reduceLeft (Reducer.pure name fun accumulated next => .ok (apply accumulated next)).call
      (pure start) [lhs, rhs]).run tracing store =
      ((both lhs rhs).run tracing store).calling
        (fun values => apply (apply start values.1) values.2)
        fun values => [.reduced name (.ofValue start) (.ofValue values.1),
          .reduced name (.ofValue (apply start values.1)) (.ofValue values.2)] := by
  rw [reduceLeft, ← both_eq_all]
  cases ran : (both lhs rhs).run tracing store with
  | mk outcome left journal =>
      cases outcome <;>
        simp [run_bind, run_reportingFailure_eq, reduceFrom_cons, Reducer.call_pure, ran,
          Run.calling]

theorem run_reduceLeft_one {initial : Evaluation kind.Value} {start : kind.Value}
    (starts : (initial.run tracing store).outcome = .ok start) (operand : Evaluation kind.Value) :
    (reduceLeft (Reducer.pure name fun accumulated next => .ok (apply accumulated next)).call
      initial [operand]).run tracing store =
      ((both initial operand).run tracing store).calling (fun values => apply values.1 values.2)
        fun values => [.reduced name (.ofValue values.1) (.ofValue values.2)] := by
  cases ran : (operand.run tracing (initial.run tracing store).store).outcome <;>
    simp [reduceLeft, run_bind, run_reportingFailure_eq, run_all, run_both, reduceFrom_cons,
      Reducer.call_pure, starts, ran, Run.calling, Outcome.both, Outcome.gathered]

end Evaluation

namespace Calculation

/-- A fold from a neutral value does with two operands what the binary function does. -/
theorem binary_matches_reduceLeft (name : Option String)
    (apply : kind.Value → kind.Value → kind.Value) {start : kind.Value}
    (neutral : ∀ value, apply start value = value) (lhs rhs : Calculation kind) :
    (binary (.pure name apply) lhs rhs).evaluate.Matches (.besidesCalls name)
      (reduceLeft (.pure name fun accumulated next => .ok (apply accumulated next))
        (.constant start) (.ofList [lhs, rhs])).evaluate := by
  intro tracing store _
  rw [evaluate_binary, Evaluation.run_binary_pure, evaluate_reduceLeft, Operands.toList_ofList,
    evaluate_constant, List.map_cons, List.map_cons, List.map_nil, Evaluation.run_reduceLeft_two]
  simp only [neutral]
  apply Run.matches_calling <;> simp [Entry.isCallOf]

variable {name : Option String} {apply : kind.Value → kind.Value → kind.Value}
  {lhs rhs : Calculation kind} {tracing : Bool} {store : Store}

theorem binary_matches_reduceLeft_of_ok {value : kind.Value}
    (succeeds : (lhs.evaluate.run tracing store).outcome = .ok value) :
    ((binary (.pure name apply) lhs rhs).evaluate.run tracing store).Matches (.besidesCalls name)
      ((reduceLeft (.pure name fun accumulated next => .ok (apply accumulated next)) lhs
        (.ofList [rhs])).evaluate.run tracing store) := by
  rw [evaluate_binary, Evaluation.run_binary_pure, evaluate_reduceLeft, Operands.toList_ofList,
    List.map_cons, List.map_nil, Evaluation.run_reduceLeft_one name apply tracing store succeeds]
  apply Run.matches_calling <;> simp [Entry.isCallOf]

theorem run_binary_of_error {failure : Failure}
    (fails : (lhs.evaluate.run tracing store).outcome = .error failure) :
    (binary (.pure name apply) lhs rhs).evaluate.run tracing store =
      let left := lhs.evaluate.run tracing store
      let right := rhs.evaluate.run tracing left.store
      let failures := failure :: right.outcome.failure?.toList
      ⟨.error (.aggregate failures), right.store,
        left.journal ++ right.journal ++
          Event.entries tracing (.operandsFailed failures.length)⟩ := by
  rw [evaluate_binary, Evaluation.run_binary_pure, Evaluation.run_both]
  simp [fails, Outcome.both, Run.calling, Event.ofFailures]

/-- Two operands are run like a list of two. So sums and products of two operands are the binary
functions, and a fold of one operand is the binary function of its initial value and the operand,
unless the initial value fails: then the fold stops with that failure, and the binary function runs
the other operand and puts the failures together. -/
theorem pair_is_list_of_two :
    (∀ {kind : Kind} (lhs rhs : Calculation kind),
      (fun values => [values.1, values.2]) <$> Evaluation.both lhs.evaluate rhs.evaluate =
        Evaluation.all [lhs.evaluate, rhs.evaluate]) ∧
    (∀ lhs rhs : Calculation .int,
      (binary (.pure none fun left right => left + right) lhs rhs).evaluate.Matches
          (.besidesCalls none) (sum (.ofList [lhs, rhs])).evaluate ∧
        (binary (.pure none fun left right => left * right) lhs rhs).evaluate.Matches
          (.besidesCalls none) (product (.ofList [lhs, rhs])).evaluate) ∧
    ∀ {kind : Kind} (name : Option String) (apply : kind.Value → kind.Value → kind.Value)
      (lhs rhs : Calculation kind) (tracing : Bool) (store : Store),
      let pair := (binary (.pure name apply) lhs rhs).evaluate.run tracing store
      let fold := (reduceLeft (.pure name fun accumulated next => .ok (apply accumulated next)) lhs
        (.ofList [rhs])).evaluate.run tracing store
      let left := lhs.evaluate.run tracing store
      (∀ value, left.outcome = .ok value → pair.Matches (.besidesCalls name) fold) ∧
        ∀ failure, left.outcome = .error failure →
          let right := rhs.evaluate.run tracing left.store
          let failures := failure :: right.outcome.failure?.toList
          fold = ⟨.error failure, left.store,
              left.journal ++ Event.entries tracing (.initialFailed 1)⟩ ∧
            pair = ⟨.error (.aggregate failures), right.store,
              left.journal ++ right.journal ++
                Event.entries tracing (.operandsFailed failures.length)⟩ := by
  refine ⟨fun lhs rhs => Evaluation.both_eq_all _ _, fun lhs rhs => ⟨?_, ?_⟩, ?_⟩
  · exact binary_matches_reduceLeft none _ (fun value => Int64.zero_add value) lhs rhs
  · exact binary_matches_reduceLeft none _ (fun value => Int64.one_mul value) lhs rhs
  · intro kind name apply lhs rhs tracing store pair fold left
    refine ⟨fun value succeeds => binary_matches_reduceLeft_of_ok succeeds, ?_⟩
    intro failure fails right failures
    refine ⟨?_, run_binary_of_error fails⟩
    have phases : Evaluation.FoldsInPhases _ lhs.evaluate [rhs.evaluate] tracing store fold :=
      Evaluation.foldsInPhases_reduceLeft lhs.evaluate [rhs.evaluate]
    exact phases.initialFails failure fails

end Calculation

end Deferred
