import Deferred.Proofs.Splitting
import Deferred.Proofs.Wrapping

/-!
# Operands in another order

If the steps of a fold never fail and can be done in either order, the operands of the fold can be
put into any order, as long as they leave the store as it is. The value stays the same, and what
comes of failing operands changes only in the order in which the failures are listed: each fold
lists them in the order of its own operands. The initial value may do anything to the store, as it
is run before all operands in any case. The reducing function may do more than compute a value, as
long as the value is a function of what it is called on.

Comparison is symmetric in the same sense: its two operands can be swapped, and so are their
failures.
-/

namespace Deferred

variable {kind : Kind} {α β : Type}

theorem Evaluation.outcome_bind (first : Evaluation α) (rest : α → Evaluation β) (tracing : Bool)
    (store : Store) :
    ((first >>= rest).run tracing store).outcome =
      (first.run tracing store).outcome.bind fun value =>
        ((rest value).run tracing (first.run tracing store).store).outcome := by
  cases begun : (first.run tracing store).outcome <;> simp [run_bind, begun, Except.bind]

/-- A reducing function always comes to the value of a function, whatever else it does. -/
def Reducer.Computes (reducer : Reducer kind) (apply : kind.Value → kind.Value → kind.Value) :
    Prop :=
  ∀ accumulated next tracing store,
    ((reducer.call accumulated next).run tracing store).outcome = .ok (apply accumulated next)

namespace Outcome

/-- How the outcomes of folds over the same operands in two orders are related. -/
structure Permutes (start : Outcome α) (operands order : List (Outcome α)) (own other : Outcome α) :
    Prop where
  initialFails : ∀ failure, start = .error failure →
    own = .error failure ∧ other = .error failure
  succeed : ∀ begun, start = .ok begun → failures operands = [] →
    ∃ value, own = .ok value ∧ other = .ok value
  /-- Each fold lists the failures in the order of its own operands. -/
  operandsFail : ∀ begun, start = .ok begun → failures operands ≠ [] →
    own = .error (.aggregate (failures operands)) ∧
      other = .error (.aggregate (failures order)) ∧
      (failures order).Perm (failures operands) ∧
      (failures order).length = (failures operands).length

theorem foldlM_ok (apply : α → α → α) (begun : α) (values : List α) :
    values.foldlM (fun accumulated next => (.ok (apply accumulated next) : Outcome α)) begun =
      .ok (values.foldl apply begun) :=
  List.foldlM_pure

theorem permutes_folded {apply : α → α → α}
    (commutes : ∀ accumulated first second,
      apply (apply accumulated first) second = apply (apply accumulated second) first)
    (start : Outcome α) {operands order : List (Outcome α)} (perm : order.Perm operands) :
    Permutes start operands order
      (folded (fun accumulated next => .ok (apply accumulated next)) start operands)
      (folded (fun accumulated next => .ok (apply accumulated next)) start order) where
  initialFails := by
    rintro failure rfl
    exact ⟨folded_error failure operands, folded_error failure order⟩
  succeed := by
    rintro begun rfl nothing
    have failuresPerm : (failures order).Perm (failures operands) := perm.filterMap failure?
    have nothingElse : failures order = [] := (nothing ▸ failuresPerm).eq_nil
    have valuesPerm : (values order).Perm (values operands) := perm.filterMap value?
    have sameTotal := valuesPerm.foldl_eq' (fun first _ second _ accumulated =>
      commutes accumulated first second) begun
    refine ⟨(values operands).foldl apply begun, ?_, ?_⟩
    · rw [failures_eq_nil_iff.mp nothing, folded_map_ok, foldlM_ok, values_map_ok]
    · rw [failures_eq_nil_iff.mp nothingElse, folded_map_ok, foldlM_ok, sameTotal]
  operandsFail := by
    rintro begun rfl failing
    have failuresPerm : (failures order).Perm (failures operands) := perm.filterMap failure?
    have failingToo : failures order ≠ [] := by
      intro nothing
      exact failing (nothing ▸ failuresPerm).nil_eq.symm
    exact ⟨folded_of_failures_ne_nil failing, folded_of_failures_ne_nil failingToo, failuresPerm,
      failuresPerm.length_eq⟩

/-- Operands that are compared can be swapped. If any of them fail, this swaps the failures. -/
theorem equals_swap [DecidableEq α] (left right : Outcome α) :
    let equal (values : α × α) : Bool := values.1 = values.2
    (∀ value, (both left right).map equal = .ok value ↔ (both right left).map equal = .ok value) ∧
      ∀ failure, (both left right).map equal = .error failure →
        failure = .aggregate (left.failure?.toList ++ right.failure?.toList) ∧
          (both right left).map equal =
            .error (.aggregate (right.failure?.toList ++ left.failure?.toList)) := by
  cases left <;> cases right <;> simp [both, eq_comm]

end Outcome

theorem Reducer.Computes.outcome_reduceFrom {reducer : Reducer kind}
    {apply : kind.Value → kind.Value → kind.Value} (computes : reducer.Computes apply)
    (index : Nat) (accumulated : kind.Value) (values : List kind.Value) (tracing : Bool)
    (store : Store) :
    ((Evaluation.reduceFrom reducer.call index accumulated values).run tracing store).outcome =
      .ok (values.foldl apply accumulated) := by
  induction values generalizing index accumulated store with
  | nil => rfl
  | cons next rest ih =>
      rw [Evaluation.reduceFrom_cons, Evaluation.outcome_bind, Evaluation.run_reportingFailure_eq,
        computes accumulated next tracing store]
      exact ih (index + 1) (apply accumulated next) _

theorem Reducer.computes_pure (name : Option String)
    (apply : kind.Value → kind.Value → kind.Value) :
    (Reducer.pure name fun accumulated next => .ok (apply accumulated next)).Computes apply :=
  fun _ _ _ _ => rfl

namespace Calculation

/-- A fold whose operands leave the store as it is comes to the fold of what they come to, in the
store that the initial value leaves behind. -/
theorem outcome_reduceLeft {reducer : Reducer kind} {apply : kind.Value → kind.Value → kind.Value}
    (computes : reducer.Computes apply) (initial : Calculation kind)
    {operands : List (Calculation kind)} {tracing : Bool} {store : Store}
    (unchanged : ∀ operand ∈ operands,
      (operand.evaluate.run tracing (initial.evaluate.run tracing store).store).store =
        (initial.evaluate.run tracing store).store) :
    (reduceLeft reducer initial (.ofList operands)).outcome tracing store =
      Outcome.folded (fun accumulated next => .ok (apply accumulated next))
        (initial.outcome tracing store)
        (operands.map (outcome tracing (initial.evaluate.run tracing store).store)) := by
  have collected : (Evaluation.all (operands.map evaluate)).Gives tracing
      (initial.evaluate.run tracing store).store (Outcome.collected _) :=
    Evaluation.gives_all fun operand member => ⟨rfl, unchanged operand member⟩
  rw [outcome, evaluate_reduceLeft, Operands.toList_ofList, Evaluation.reduceLeft]
  simp only [Evaluation.outcome_bind, Evaluation.run_reportingFailure_eq, collected.outcome_eq,
    computes.outcome_reduceFrom, Outcome.folded, Outcome.foldlM_ok]
  rfl

theorem outcome_equals {lhs rhs : Calculation kind} {tracing : Bool} {store : Store}
    (leftKept : (lhs.evaluate.run tracing store).store = store)
    (rightKept : (rhs.evaluate.run tracing store).store = store) :
    (equals lhs rhs).outcome tracing store =
      (Outcome.both (lhs.outcome tracing store) (rhs.outcome tracing store)).map fun values =>
        decide (values.1 = values.2) := by
  have left : lhs.evaluate.Gives tracing store (lhs.outcome tracing store) := ⟨rfl, leftKept⟩
  have right : rhs.evaluate.Gives tracing store (rhs.outcome tracing store) := ⟨rfl, rightKept⟩
  exact ((left.both right).map _).outcome_eq

/-- The operands of a fold with the given initial value can be put into any order, if they leave the
store as it is that the initial value leaves behind. -/
def PermutesOperands (fold : Operands kind → Calculation kind) (initial : Calculation kind) :
    Prop :=
  ∀ (operands order : List (Calculation kind)) (tracing : Bool) (store : Store),
    let begun := (initial.evaluate.run tracing store).store
    order.Perm operands →
    (∀ operand ∈ operands, (operand.evaluate.run tracing begun).store = begun) →
      Outcome.Permutes (initial.outcome tracing store) (operands.map (outcome tracing begun))
        (order.map (outcome tracing begun)) ((fold (.ofList operands)).outcome tracing store)
        ((fold (.ofList order)).outcome tracing store)

theorem permutesOperands_of_computes {reducer : Reducer kind}
    {apply : kind.Value → kind.Value → kind.Value} (computes : reducer.Computes apply)
    (commutes : ∀ accumulated first second,
      apply (apply accumulated first) second = apply (apply accumulated second) first)
    (initial : Calculation kind) : PermutesOperands (reduceLeft reducer initial) initial := by
  intro operands order tracing store begun perm unchanged
  have unchangedToo : ∀ operand ∈ order, (operand.evaluate.run tracing begun).store = begun :=
    fun operand member => unchanged operand (perm.mem_iff.mp member)
  rw [outcome_reduceLeft computes initial unchanged,
    outcome_reduceLeft computes initial unchangedToo]
  exact Outcome.permutes_folded commutes _ (perm.map _)

theorem permutesOperands_wrapping (folding : Folding) :
    PermutesOperands folding.wrapping (.constant folding.start) := by
  have isFold : folding.wrapping = reduceLeft _ (.constant folding.start) :=
    funext folding.wrapping_eq
  rw [isFold]
  apply permutesOperands_of_computes (Reducer.computes_pure none _)
  intro accumulated first second
  cases folding with
  | sum =>
      change accumulated + first + second = accumulated + second + first
      rw [Int64.add_assoc, Int64.add_comm first, Int64.add_assoc]
  | product =>
      change accumulated * first * second = accumulated * second * first
      rw [Int64.mul_assoc, Int64.mul_comm first, Int64.mul_assoc]

/-- Operands that leave the store as it is can be put into another order. A fold whose reducing
function never fails and takes values in either order comes to the same value, or to the same
failures in another order. So do sums and products that wrap around, and comparisons. -/
theorem operands_permute :
    (∀ {kind : Kind} (reducer : Reducer kind) (apply : kind.Value → kind.Value → kind.Value)
      (initial : Calculation kind), reducer.Computes apply →
      (∀ accumulated first second,
        apply (apply accumulated first) second = apply (apply accumulated second) first) →
      PermutesOperands (reduceLeft reducer initial) initial) ∧
    (∀ folding : Folding, PermutesOperands folding.wrapping (.constant folding.start)) ∧
    ∀ {kind : Kind} (lhs rhs : Calculation kind) (tracing : Bool) (store : Store),
      (lhs.evaluate.run tracing store).store = store →
      (rhs.evaluate.run tracing store).store = store →
      let own := (equals lhs rhs).outcome tracing store
      let other := (equals rhs lhs).outcome tracing store
      let left := (lhs.outcome tracing store).failure?.toList
      let right := (rhs.outcome tracing store).failure?.toList
      (∀ value, own = .ok value ↔ other = .ok value) ∧
        ∀ failure, own = .error failure →
          failure = .aggregate (left ++ right) ∧ other = .error (.aggregate (right ++ left)) := by
  refine ⟨fun reducer apply initial computes commutes =>
    permutesOperands_of_computes computes commutes initial, permutesOperands_wrapping, ?_⟩
  intro kind lhs rhs tracing store leftKept rightKept
  rw [outcome_equals leftKept rightKept, outcome_equals rightKept leftKept]
  exact Outcome.equals_swap _ _

/-- The initial value of a fold sets a variable that an operand reads, and subtractions are done in
another order. -/
theorem operands_permute_of_subtractions :
    let source : Variable .int := ⟨0⟩
    let subtract : Reducer .int :=
      .pure (some "sub") fun accumulated next => .ok (accumulated - next)
    let initial : Calculation .int := .setting source (5 : Int64) (.constant (9 : Int64))
    let held : Calculation .int := .input source
    let two : Calculation .int := .constant (2 : Int64)
    let lost : Calculation .int := .failing (.message "lost")
    let gone : Calculation .int := .failing (.message "gone")
    (∃ value : Int64,
      (reduceLeft subtract initial (.ofList [held, two])).outcome true .empty = .ok value ∧
        (reduceLeft subtract initial (.ofList [two, held])).outcome true .empty = .ok value) ∧
    (reduceLeft subtract initial (.ofList [lost, held, gone])).outcome true .empty =
      .error (.aggregate [.message "lost", .message "gone"]) ∧
    (reduceLeft subtract initial (.ofList [gone, lost, held])).outcome true .empty =
      .error (.aggregate [.message "gone", .message "lost"]) ∧
    (equals gone lost).outcome true .empty =
      .error (.aggregate [.message "gone", .message "lost"]) := by
  intro source subtract initial held two lost gone
  have commutes : ∀ accumulated first second : Int64,
      accumulated - first - second = accumulated - second - first := by
    grind
  rcases operands_permute with ⟨folds, _, comparisons⟩
  have permutes := folds subtract (fun lhs rhs : Int64 => lhs - rhs) initial
    (Reducer.computes_pure _ _) commutes
  have swapped : [two, held].Perm [held, two] := .swap held two []
  have rotated : ([gone] ++ [lost, held]).Perm ([lost, held] ++ [gone]) := List.perm_append_comm
  let begun := (initial.evaluate.run true .empty).store
  have kept : ∀ operand ∈ [held, two], (operand.evaluate.run true begun).store = begun := by
    simp only [List.forall_mem_cons]
    exact ⟨rfl, rfl, List.forall_mem_nil _⟩
  have keptToo : ∀ operand ∈ [lost, held] ++ [gone],
      (operand.evaluate.run true begun).store = begun := by
    simp only [List.forall_mem_append, List.forall_mem_cons]
    exact ⟨⟨rfl, rfl, List.forall_mem_nil _⟩, rfl, List.forall_mem_nil _⟩
  have fail := (permutes _ _ true .empty rotated keptToo).operandsFail (9 : Int64) rfl
    (List.cons_ne_nil _ _)
  have compared := comparisons lost gone true .empty rfl rfl
  refine ⟨(permutes _ _ true .empty swapped kept).succeed (9 : Int64) rfl rfl, fail.1, fail.2.1, ?_⟩
  exact (compared.2 _ rfl).2

end Calculation

end Deferred
