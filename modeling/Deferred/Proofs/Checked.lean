import Deferred.Proofs.FailureTree
import Deferred.Proofs.Wrapping

/-!
# Graphs that are checked

A `Tally` is a term of sums and products only. It describes a graph that wraps around, and a graph
in which every fold fails instead. The checked graph gives a value exactly if at every fold the
exact values of its operands can be folded without leaving the range of 64-bit integers on the way:
it does not help if a later operand brings the total back. The value is then the exact one, which
is also that of the graph that wraps around. Otherwise nothing but overflows went wrong.
-/

namespace Deferred

namespace Arithmetic

theorem toInt_ofInt_of_fits {exact : Int} (fits : Fits exact) : (Int64.ofInt exact).toInt = exact :=
  Int64.toInt_ofInt_of_le fits.1 (Int.lt_of_le_sub_one fits.2)

/-- All intermediate results of an exact fold fit, the first and the last one included. -/
def FitsThroughout (step : Int → Int → Int) (start : Int) (values : List Int) : Prop :=
  ∀ before, before <+: values → Fits (before.foldl step start)

theorem fitsThroughout_nil_iff {step : Int → Int → Int} {start : Int} :
    FitsThroughout step start [] ↔ Fits start := by
  simp [FitsThroughout]

theorem fitsThroughout_cons_iff {step : Int → Int → Int} {start next : Int} {rest : List Int} :
    FitsThroughout step start (next :: rest) ↔
      Fits start ∧ FitsThroughout step (step start next) rest := by
  constructor
  · intro fits
    refine ⟨fits [] List.nil_prefix, ?_⟩
    intro before isPrefix
    exact fits (next :: before) (List.cons_prefix_cons.mpr ⟨rfl, isPrefix⟩)
  · rintro ⟨first, others⟩ before isPrefix
    rcases List.prefix_cons_iff.mp isPrefix with rfl | ⟨shorter, rfl, isShorter⟩
    · exact first
    · exact others shorter isShorter

end Arithmetic

namespace Folding

/-- The name of the operation that overflows. -/
def overflowing : Folding → String
  | .sum => "addition"
  | .product => "multiplication"

/-- A step that fails instead of wrapping around. -/
def checkedStep (folding : Folding) (accumulated next : Int64) : Outcome Int64 :=
  Arithmetic.checked folding.overflowing (folding.operation.exact accumulated.toInt next.toInt)

/-- The fold that fails instead of wrapping around. -/
def checked : Folding → Operands .int → Calculation .int
  | .sum, operands => .checkedSum operands
  | .product, operands => .checkedProduct operands

theorem checked_eq (folding : Folding) (operands : Operands .int) :
    folding.checked operands =
      .reduceLeft (.pure none folding.checkedStep) (.constant folding.start) operands := by
  cases folding <;> rfl

/-- What a checked fold comes to, if its operands leave the store as it is. -/
theorem gives_checked {ι : Type} (folding : Folding) {items : List ι}
    {operand : ι → Calculation .int} {outcome : ι → Outcome Int64} {tracing : Bool} {store : Store}
    (each : ∀ item ∈ items, (operand item).evaluate.Gives tracing store (outcome item)) :
    (folding.checked (.ofList (items.map operand))).evaluate.Gives tracing store
      ((Outcome.collected (items.map outcome)).bind fun values =>
        values.foldlM folding.checkedStep folding.start) := by
  rw [checked_eq, Calculation.evaluate_reduceLeft, Operands.toList_ofList, List.map_map]
  exact Reducer.gives_reduceLeft_pure none folding.checkedStep
    (Evaluation.gives_pure folding.start) each

/-- All intermediate results fit when the exact values are folded. -/
def FitsThroughout (folding : Folding) (values : List Int) : Prop :=
  Arithmetic.FitsThroughout folding.operation.exact folding.start.toInt values

/-- Checked steps are exact as long as everything fits, and overflow if something does not. -/
theorem foldlM_checkedStep (folding : Folding) (accumulated : Int64) (values : List Int64) :
    (Arithmetic.FitsThroughout folding.operation.exact accumulated.toInt
        (values.map Int64.toInt) →
      ∃ value, values.foldlM folding.checkedStep accumulated = .ok value ∧
        value.toInt = (values.map Int64.toInt).foldl folding.operation.exact accumulated.toInt) ∧
    (¬Arithmetic.FitsThroughout folding.operation.exact accumulated.toInt
        (values.map Int64.toInt) →
      values.foldlM folding.checkedStep accumulated = .error (.overflow folding.overflowing)) := by
  induction values generalizing accumulated with
  | nil =>
      refine ⟨fun _ => ⟨accumulated, rfl, rfl⟩, ?_⟩
      intro unfit
      exact absurd (Arithmetic.fitsThroughout_nil_iff.mpr (Arithmetic.fits_toInt _)) unfit
  | cons next rest ih =>
      rw [List.map_cons, Arithmetic.fitsThroughout_cons_iff, List.foldlM_cons, List.foldl_cons]
      cases stepped : folding.checkedStep accumulated next with
      | ok reduced =>
          have exact := Arithmetic.checked_eq_ok_iff.mp stepped
          rw [← exact]
          refine ⟨fun fits => (ih reduced).1 fits.2, ?_⟩
          intro unfit
          exact (ih reduced).2 fun others => unfit ⟨Arithmetic.fits_toInt _, others⟩
      | error failure =>
          rcases Arithmetic.checked_eq_error_iff.mp stepped with ⟨unfit, rfl⟩
          refine ⟨?_, fun _ => rfl⟩
          rintro ⟨_, others⟩
          exact absurd (others [] List.nil_prefix) unfit

end Folding

/-- A term of sums and products only. -/
inductive Tally where
  | constant (value : Int64)
  | input (source : Variable .int)
  | fold (folding : Folding) (operands : List Tally)

namespace Tally

mutual

/-- The same as a term. -/
def term : Tally → Term
  | .constant value => .constant value
  | .input source => .input source
  | .fold folding operands => .fold folding (termAll operands)

/-- The same as terms. -/
def termAll : List Tally → List Term
  | [] => []
  | tally :: rest => tally.term :: termAll rest

end

mutual

/-- The graph of a tally, in which every fold fails instead of wrapping around. -/
def checked : Tally → Calculation .int
  | .constant value => .constant value
  | .input source => .input source
  | .fold folding operands => folding.checked (.ofList (checkedAll operands))

/-- The graphs of several tallies. -/
def checkedAll : List Tally → List (Calculation .int)
  | [] => []
  | tally :: rest => tally.checked :: checkedAll rest

end

/-- The graph of a tally, in which every fold wraps around. -/
def wrapping (tally : Tally) : Calculation .int :=
  tally.term.wrapping

/-- The value of a tally in integers without bounds. -/
def exact (store : Store) (tally : Tally) : Int :=
  tally.term.exact store

mutual

/-- At every fold in a tally all intermediate results fit when the exact values are folded. -/
def FitsEverywhere (store : Store) : Tally → Prop
  | .constant _ => True
  | .input _ => True
  | .fold folding operands =>
    folding.FitsThroughout (operands.map (exact store)) ∧ AllFitEverywhere store operands

/-- The same of several tallies. -/
def AllFitEverywhere (store : Store) : List Tally → Prop
  | [] => True
  | tally :: rest => tally.FitsEverywhere store ∧ AllFitEverywhere store rest

end

@[simp]
theorem termAll_eq_map (tallies : List Tally) : termAll tallies = tallies.map term := by
  induction tallies with
  | nil => rfl
  | cons tally rest ih => simp [termAll, ih]

@[simp]
theorem checkedAll_eq_map (tallies : List Tally) : checkedAll tallies = tallies.map checked := by
  induction tallies with
  | nil => rfl
  | cons tally rest ih => simp [checkedAll, ih]

@[simp]
theorem allFitEverywhere_iff {store : Store} {tallies : List Tally} :
    AllFitEverywhere store tallies ↔ ∀ tally ∈ tallies, tally.FitsEverywhere store := by
  induction tallies with
  | nil => simp [AllFitEverywhere]
  | cons tally rest ih => simp [AllFitEverywhere, ih]

theorem exact_fold (store : Store) (folding : Folding) (operands : List Tally) :
    (fold folding operands).exact store = folding.total (operands.map (exact store)) := by
  rw [exact, term, Term.exact, termAll_eq_map, Term.exactAll_eq_map, List.map_map]
  rfl

/-- What holds of a tally if it holds of its operands holds of every tally. -/
@[elab_as_elim]
theorem induction {motive : Tally → Prop} (constant : ∀ value, motive (.constant value))
    (input : ∀ source, motive (.input source))
    (fold : ∀ folding operands, (∀ operand ∈ operands, motive operand) →
      motive (.fold folding operands)) :
    (tally : Tally) → motive tally
  | .constant value => constant value
  | .input source => input source
  | .fold folding operands =>
      fold folding operands fun operand _ => induction constant input fold operand

end Tally

/-- A failure has a leaf, and all its leaves are overflows of folds. -/
def Failure.IsOverflow (failure : Failure) : Prop :=
  failure.leaves ≠ [] ∧
    ∀ nested ∈ failure.leaves, ∃ folding : Folding, nested.failure = .overflow folding.overflowing

theorem Failure.isOverflow_overflow (folding : Folding) :
    (Failure.overflow folding.overflowing).IsOverflow := by
  refine ⟨by simp [leaves], ?_⟩
  intro nested member
  rw [leaves, List.mem_singleton] at member
  exact ⟨folding, by rw [member]⟩

theorem Failure.isOverflow_aggregate {causes : List Failure} (nonempty : causes ≠ [])
    (each : ∀ cause ∈ causes, cause.IsOverflow) : (Failure.aggregate causes).IsOverflow := by
  rw [IsOverflow, leaves_aggregate]
  constructor
  · rcases List.exists_mem_of_ne_nil causes nonempty with ⟨cause, member⟩
    simp only [ne_eq, List.map_eq_nil_iff, List.flatMap_eq_nil_iff]
    intro empty
    exact (each cause member).1 (empty cause member)
  · intro nested member
    simp only [List.mem_map, List.mem_flatMap] at member
    rcases member with ⟨below, ⟨cause, causeMember, belowMember⟩, rfl⟩
    exact (each cause causeMember).2 below belowMember

/-- An outcome is right for a tally: it is the exact value if everything fits, and otherwise an
overflow. -/
def Tally.Settles (store : Store) (tally : Tally) : Outcome Int64 → Prop
  | .ok value => tally.FitsEverywhere store ∧ value.toInt = tally.exact store
  | .error failure => ¬tally.FitsEverywhere store ∧ failure.IsOverflow

namespace Tally

variable {store : Store}

/-- If all operands give a value, the values are exact. -/
theorem exact_of_settles {operands : List Tally} {values : List Int64}
    {outcome : Tally → Outcome Int64}
    (each : ∀ operand ∈ operands, operand.Settles store (outcome operand))
    (succeeded : operands.map outcome = values.map .ok) :
    values.map Int64.toInt = operands.map (exact store) ∧
      ∀ operand ∈ operands, operand.FitsEverywhere store := by
  induction operands generalizing values with
  | nil =>
      rw [List.map_nil, eq_comm, List.map_eq_nil_iff] at succeeded
      subst succeeded
      simp
  | cons operand operands ih =>
      rcases values with _ | ⟨value, values⟩
      · simp at succeeded
      · simp only [List.map_cons, List.cons.injEq] at succeeded
        have first := each operand List.mem_cons_self
        rw [succeeded.1] at first
        rcases first with ⟨fits, isExact⟩
        rcases ih (fun other member => each other (List.mem_cons_of_mem _ member)) succeeded.2 with
          ⟨same, othersFit⟩
        exact ⟨by simp [isExact, same], List.forall_mem_cons.mpr ⟨fits, othersFit⟩⟩

/-- A checked fold is right if its operands are. -/
theorem settles_fold (folding : Folding) {operands : List Tally} {outcome : Tally → Outcome Int64}
    (each : ∀ operand ∈ operands, operand.Settles store (outcome operand)) :
    (fold folding operands).Settles store
      ((Outcome.collected (operands.map outcome)).bind fun values =>
        values.foldlM folding.checkedStep folding.start) := by
  by_cases nothing : Outcome.failures (operands.map outcome) = []
  · have succeeded := Outcome.failures_eq_nil_iff.mp nothing
    generalize Outcome.values (operands.map outcome) = values at succeeded
    rcases exact_of_settles each succeeded with ⟨same, fit⟩
    rcases folding.foldlM_checkedStep folding.start values with ⟨exactly, overflows⟩
    rw [same] at exactly overflows
    rw [succeeded, Outcome.collected_map_ok, Except.bind]
    by_cases throughout : folding.FitsThroughout (operands.map (exact store))
    · rcases exactly throughout with ⟨value, succeeds, isExact⟩
      rw [succeeds]
      refine ⟨⟨throughout, allFitEverywhere_iff.mpr fit⟩, ?_⟩
      rw [isExact, exact_fold]
      rfl
    · rw [overflows throughout]
      exact ⟨fun fits => throughout fits.1, Failure.isOverflow_overflow folding⟩
  · have failing : ∀ failure ∈ Outcome.failures (operands.map outcome),
        ∃ operand ∈ operands, ¬operand.FitsEverywhere store ∧ failure.IsOverflow := by
      intro failure member
      rcases List.mem_map.mp (Outcome.mem_failures_iff.mp member) with ⟨operand, inside, fails⟩
      have settles := each operand inside
      rw [fails] at settles
      exact ⟨operand, inside, settles⟩
    rw [Outcome.collected_of_failures_ne_nil nothing]
    refine ⟨?_, Failure.isOverflow_aggregate nothing ?_⟩
    · intro fits
      rcases List.exists_mem_of_ne_nil _ nothing with ⟨failure, member⟩
      rcases failing failure member with ⟨operand, inside, unfit, _⟩
      exact unfit (allFitEverywhere_iff.mp fits.2 operand inside)
    · intro cause member
      rcases failing cause member with ⟨operand, _, _, overflow⟩
      exact overflow

/-- What the checked graph of a tally comes to. -/
def result (tracing : Bool) (store : Store) (tally : Tally) : Outcome Int64 :=
  (tally.checked.evaluate.run tracing store).outcome

/-- A checked graph leaves the store as it is and comes to what is right. -/
theorem gives_checked (tally : Tally) (tracing : Bool) :
    tally.checked.evaluate.Gives tracing store (tally.result tracing store) ∧
      tally.Settles store (tally.result tracing store) := by
  induction tally using Tally.induction with
  | constant value => exact ⟨⟨rfl, rfl⟩, trivial, rfl⟩
  | input source => exact ⟨⟨rfl, rfl⟩, trivial, rfl⟩
  | fold folding operands ih =>
      have folded := folding.gives_checked fun operand member => (ih operand member).1
      have settled := settles_fold folding fun operand member => (ih operand member).2
      rw [result, checked, checkedAll_eq_map]
      refine ⟨⟨rfl, folded.store_eq⟩, ?_⟩
      rw [folded.outcome_eq]
      exact settled

/-- A checked graph gives a value exactly if everything fits. The value is the exact one, and the
graph that wraps around has the same. Otherwise the failure has overflows for leaves, and no other
leaves. -/
theorem checked_refines_wrapping (tally : Tally) (tracing : Bool) (store : Store) :
    let outcome := (tally.checked.evaluate.run tracing store).outcome
    ((∃ value, outcome = .ok value) ↔ tally.FitsEverywhere store) ∧
      (∀ value, outcome = .ok value →
        value.toInt = tally.exact store ∧
          (tally.wrapping.evaluate.run tracing store).outcome = .ok value) ∧
      ∀ failure, outcome = .error failure →
        failure.leaves ≠ [] ∧
          ∀ nested ∈ failure.leaves, nested.failure = .overflow "addition" ∨
            nested.failure = .overflow "multiplication" := by
  intro outcome
  have settled : tally.Settles store outcome := (tally.gives_checked tracing).2
  refine ⟨?_, ?_, ?_⟩
  · cases ended : outcome with
    | ok value =>
        rw [ended] at settled
        simp [settled.1]
    | error failure =>
        rw [ended] at settled
        simp [settled.1]
  · intro value succeeds
    rw [succeeds] at settled
    refine ⟨settled.2, ?_⟩
    rw [wrapping, tally.term.gives_wrapping.outcome_eq]
    have reduced : Int64.ofInt (tally.term.exact store) = value := by
      rw [← Int64.ofInt_toInt value, settled.2]
      rfl
    rw [reduced]
  · intro failure fails
    rw [fails] at settled
    refine ⟨settled.2.1, ?_⟩
    intro nested member
    rcases settled.2.2 nested member with ⟨folding, overflow⟩
    cases folding with
    | sum => exact Or.inl overflow
    | product => exact Or.inr overflow

/-- The total fits in the end, but not on the way. -/
example :
    ((Tally.fold .sum [.constant .maxValue, .constant 1, .constant (-1)]).checked.evaluate.run true
      .empty).outcome = .error (.overflow "addition") := rfl

end Tally

end Deferred
