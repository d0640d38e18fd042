import Deferred.Proofs.Steady

/-!
# Folds of folds

A fold can be split: a first fold takes some of the operands, and its result is the initial value
of a fold that takes the others. If the reducing function is pure and no part changes the store,
both forms have the same value whenever one of them has a value. Their failures differ, as an
initial value fails on its own, operands fail together, and a step fails only after all operands of
its fold have succeeded. The nested form says nothing of failing operands in the second part if the
first part fails, and the flat form says nothing of a failing step in the first part if an operand
of the second part fails.

What a fold comes to is a function of what its parts come to (`Outcome.folded`), so all this is a
matter of lists of outcomes.
-/

namespace Deferred

variable {α : Type}

namespace Outcome

/-- What a fold comes to: the failure of the initial value, all failures of the operands, or the
values put together step by step. -/
def folded (step : α → α → Outcome α) (start : Outcome α) (operands : List (Outcome α)) :
    Outcome α :=
  start.bind fun first => (collected operands).bind fun values => values.foldlM step first

/-- How the outcomes of a flat fold and of a nested one are related. -/
structure Splits (step : α → α → Outcome α) (start : Outcome α) (first second : List (Outcome α))
    (flat nested : Outcome α) : Prop where
  succeeds : ∀ value, flat = .ok value ↔ nested = .ok value
  initialFails : ∀ failure, start = .error failure →
    flat = .error failure ∧ nested = .error failure
  /-- If operands of the first part fail, nothing is heard of the second part in the nested form. -/
  firstFail : ∀ begun, start = .ok begun → failures first ≠ [] →
    flat = .error (.aggregate (failures first ++ failures second)) ∧
      nested = .error (.aggregate (failures first))
  /-- If a step of the first part fails, the flat form still prefers operands that fail. -/
  stepFails : ∀ (begun : α) (values : List α) (failure : Failure), start = .ok begun →
    first = values.map .ok → values.foldlM step begun = .error failure →
      nested = .error failure ∧
        (failures second = [] → flat = .error failure) ∧
        (failures second ≠ [] → flat = .error (.aggregate (failures second)))
  otherwise : ∀ (begun : α) (values : List α) (reduced : α), start = .ok begun →
    first = values.map .ok → values.foldlM step begun = .ok reduced →
      flat = nested ∧
        (failures second ≠ [] → nested = .error (.aggregate (failures second))) ∧
        ∀ others : List α, second = others.map .ok → nested = others.foldlM step reduced

variable {step : α → α → Outcome α} {begun : α} {failure : Failure} {values : List α}
  {first second operands : List (Outcome α)}

theorem folded_error (failure : Failure) (operands : List (Outcome α)) :
    folded step (.error failure) operands = .error failure := rfl

theorem folded_of_failures_ne_nil (failing : failures operands ≠ []) :
    folded step (.ok begun) operands = .error (.aggregate (failures operands)) := by
  simp only [folded, Except.bind, collected_of_failures_ne_nil failing]

theorem folded_map_ok :
    folded step (.ok begun) (values.map .ok) = values.foldlM step begun := by
  simp only [folded, Except.bind, collected_map_ok]

theorem exists_map_ok_of_failures_eq_nil (nothing : failures operands = []) :
    ∃ values : List α, operands = values.map .ok :=
  ⟨_, failures_eq_nil_iff.mp nothing⟩

theorem folded_eq_ok_iff {start : Outcome α} {value : α} :
    folded step start operands = .ok value ↔
      ∃ (begun : α) (values : List α), start = .ok begun ∧ operands = values.map .ok ∧
        values.foldlM step begun = .ok value := by
  simp only [folded, bind_eq_ok_iff, collected_eq_ok_iff, exists_and_left]

theorem folded_append_map_ok (others : List α) :
    folded step (.ok begun) (values.map .ok ++ others.map .ok) =
      (values.foldlM step begun).bind fun reduced => others.foldlM step reduced := by
  rw [← List.map_append, folded_map_ok, List.foldlM_append]
  rfl

theorem folded_append_of_failures_ne_nil (failing : failures second ≠ []) :
    folded step (.ok begun) (values.map .ok ++ second) = .error (.aggregate (failures second)) := by
  have same : failures (values.map .ok ++ second) = failures second := by simp
  rw [folded_of_failures_ne_nil (same ▸ failing), same]

/-- Steps that succeed can be done in a fold of their own. -/
theorem folded_append_of_ok {reduced : α} (succeeds : values.foldlM step begun = .ok reduced)
    (second : List (Outcome α)) :
    folded step (.ok begun) (values.map .ok ++ second) = folded step (.ok reduced) second := by
  by_cases nothing : failures second = []
  · rcases exists_map_ok_of_failures_eq_nil nothing with ⟨others, rfl⟩
    rw [folded_append_map_ok, succeeds, folded_map_ok]
    rfl
  · rw [folded_append_of_failures_ne_nil nothing, folded_of_failures_ne_nil nothing]

theorem folded_append_of_error (fails : values.foldlM step begun = .error failure)
    (nothing : failures second = []) :
    folded step (.ok begun) (values.map .ok ++ second) = .error failure := by
  rcases exists_map_ok_of_failures_eq_nil nothing with ⟨others, rfl⟩
  rw [folded_append_map_ok, fails]
  rfl

theorem foldlM_append_eq_ok_iff {others : List α} {value : α} :
    (values ++ others).foldlM step begun = .ok value ↔
      ∃ reduced, values.foldlM step begun = .ok reduced ∧
        others.foldlM step reduced = .ok value := by
  rw [List.foldlM_append]
  exact bind_eq_ok_iff

theorem folded_append_eq_ok_iff {start : Outcome α} {value : α} :
    folded step start (first ++ second) = .ok value ↔
      folded step (folded step start first) second = .ok value := by
  simp only [folded_eq_ok_iff]
  constructor
  · rintro ⟨begun, all, rfl, split, succeeds⟩
    rcases List.append_eq_map_iff.mp split with ⟨values, others, rfl, rfl, rfl⟩
    rcases foldlM_append_eq_ok_iff.mp succeeds with ⟨reduced, earlier, later⟩
    exact ⟨reduced, others, ⟨begun, values, rfl, rfl, earlier⟩, rfl, later⟩
  · rintro ⟨reduced, others, ⟨begun, values, rfl, rfl, earlier⟩, rfl, later⟩
    refine ⟨begun, values ++ others, rfl, List.map_append.symm, ?_⟩
    exact foldlM_append_eq_ok_iff.mpr ⟨reduced, earlier, later⟩

theorem splits_folded (step : α → α → Outcome α) (start : Outcome α)
    (first second : List (Outcome α)) :
    Splits step start first second (folded step start (first ++ second))
      (folded step (folded step start first) second) where
  succeeds _ := folded_append_eq_ok_iff
  initialFails := by
    rintro failure rfl
    exact ⟨rfl, rfl⟩
  firstFail := by
    rintro begun rfl failing
    have anywhere : failures (first ++ second) ≠ [] := by simp [failing]
    rw [folded_of_failures_ne_nil anywhere, folded_of_failures_ne_nil failing, failures_append]
    exact ⟨rfl, rfl⟩
  stepFails := by
    rintro begun values failure rfl rfl fails
    rw [folded_map_ok, fails]
    exact ⟨folded_error failure second, folded_append_of_error fails,
      folded_append_of_failures_ne_nil⟩
  otherwise := by
    rintro begun values reduced rfl rfl succeeds
    rw [folded_map_ok, succeeds]
    refine ⟨folded_append_of_ok succeeds second, folded_of_failures_ne_nil, ?_⟩
    rintro others rfl
    exact folded_map_ok

end Outcome

namespace Calculation

variable {kind : Kind} {tracing : Bool} {store : Store}

/-- What a calculation comes to in a store. -/
def outcome (tracing : Bool) (store : Store) (calculation : Calculation kind) :
    Outcome kind.Value :=
  (calculation.evaluate.run tracing store).outcome

/-- A fold of parts that leave the store as it is comes to the fold of what they come to. -/
theorem gives_reduceLeft (name : Option String)
    (step : kind.Value → kind.Value → Outcome kind.Value) {initial : Calculation kind}
    {start : Outcome kind.Value} (begun : initial.evaluate.Gives tracing store start)
    {operands : List (Calculation kind)}
    (unchanged : ∀ operand ∈ operands, (operand.evaluate.run tracing store).store = store) :
    (reduceLeft (.pure name step) initial (.ofList operands)).evaluate.Gives tracing store
      (Outcome.folded step start (operands.map (outcome tracing store))) := by
  rw [evaluate_reduceLeft, Operands.toList_ofList]
  exact Reducer.gives_reduceLeft_pure name step begun
    fun operand member => ⟨rfl, unchanged operand member⟩

/-- A fold with a pure reducing function, split into a fold of a fold, none of whose parts changes
the store. -/
theorem reduceLeft_splits (name : Option String)
    (step : kind.Value → kind.Value → Outcome kind.Value) (initial : Calculation kind)
    (first second : List (Calculation kind)) (tracing : Bool) (store : Store)
    (unchanged : ∀ part ∈ initial :: (first ++ second),
      (part.evaluate.run tracing store).store = store) :
    let flat := reduceLeft (.pure name step) initial (.ofList (first ++ second))
    let nested := reduceLeft (.pure name step)
      (reduceLeft (.pure name step) initial (.ofList first)) (.ofList second)
    Outcome.Splits step (initial.outcome tracing store) (first.map (outcome tracing store))
      (second.map (outcome tracing store)) (flat.outcome tracing store)
      (nested.outcome tracing store) := by
  intro flat nested
  rcases List.forall_mem_cons.mp unchanged with ⟨initialKept, operandsKept⟩
  rcases List.forall_mem_append.mp operandsKept with ⟨firstKept, secondKept⟩
  have begun : initial.evaluate.Gives tracing store (initial.outcome tracing store) :=
    ⟨rfl, initialKept⟩
  have inner := gives_reduceLeft name step begun firstKept
  have flatOutcome : flat.outcome tracing store = _ :=
    (gives_reduceLeft name step begun operandsKept).outcome_eq
  have nestedOutcome : nested.outcome tracing store = _ :=
    (gives_reduceLeft name step inner secondKept).outcome_eq
  rw [flatOutcome, nestedOutcome, List.map_append]
  exact Outcome.splits_folded step _ _ _

/-- The first part divides by zero, and the operand of the second part fails. -/
theorem reduceLeft_splits_of_division :
    let divided : Calculation .int := .constant (6 : Int64)
    let zero : Calculation .int := .constant (0 : Int64)
    let lost : Calculation .int := .failing (.message "lost")
    let divide : Reducer .int := .pure none Arithmetic.checkedDivide
    (∀ part ∈ [divided, zero, lost], (part.evaluate.run true .empty).store = .empty) ∧
      (reduceLeft divide divided (.ofList [zero, lost])).outcome true .empty =
        .error (.aggregate [.message "lost"]) ∧
      (reduceLeft divide (reduceLeft divide divided (.ofList [zero])) (.ofList [lost])).outcome true
        .empty = .error (.message "division by zero") := by
  intro divided zero lost divide
  have unchanged : ∀ part ∈ [divided, zero, lost],
      (part.evaluate.run true .empty).store = .empty := by
    simp only [List.forall_mem_cons]
    exact ⟨rfl, rfl, rfl, List.forall_mem_nil _⟩
  have splits := reduceLeft_splits none Arithmetic.checkedDivide divided [zero] [lost] true .empty
    unchanged
  rcases splits.stepFails (6 : Int64) [(0 : Int64)] (.message "division by zero") rfl rfl rfl with
    ⟨nested, _, flat⟩
  exact ⟨unchanged, flat (List.cons_ne_nil _ _), nested⟩

end Calculation

end Deferred
