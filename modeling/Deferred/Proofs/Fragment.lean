import Deferred.Proofs.Demand

/-!
# Fragments

Many properties of a calculation are properties of the variables, procedures and functions in it. A
`Fragment` says which of these are allowed, and a calculation is in a fragment if nothing else
occurs anywhere in it, whether or not it is demanded. What is demanded by a calculation in a
fragment is in the fragment as well.

`Fragment.pure` is the fragment without anything supplied from outside, in which functions do
nothing but give a result.
-/

namespace Deferred

variable {kind : Kind} {α : Type}

/-- What a graph may be made of. -/
structure Fragment where
  input : {kind : Kind} → Variable kind → Prop
  supplied : {kind : Kind} → Procedure (Outcome kind.Value) → Prop
  preceded : Procedure Unit → Prop
  operation : {kind : Kind} → Operation kind → Prop
  reducer : {kind : Kind} → Reducer kind → Prop

mutual

/-- Nothing occurs in a calculation but what a fragment allows. -/
def Calculation.IsIn (fragment : Fragment) : {kind : Kind} → Calculation kind → Prop
  | _, .constant _ => True
  | _, .input source => fragment.input source
  | _, .failing _ => True
  | _, .supplied procedure => fragment.supplied procedure
  | _, .preceded procedure operand => fragment.preceded procedure ∧ operand.IsIn fragment
  | _, .not operand => operand.IsIn fragment
  | _, .equals lhs rhs => lhs.IsIn fragment ∧ rhs.IsIn fragment
  | _, .conditional condition ifTrue ifFalse =>
    condition.IsIn fragment ∧ ifTrue.IsIn fragment ∧ ifFalse.IsIn fragment
  | _, .binary operation lhs rhs =>
    fragment.operation operation ∧ lhs.IsIn fragment ∧ rhs.IsIn fragment
  | _, .signum operand => operand.IsIn fragment
  | _, .reduceLeft reducer initial operands =>
    fragment.reducer reducer ∧ initial.IsIn fragment ∧ operands.IsIn fragment

/-- Nothing occurs in any of the operands but what a fragment allows. -/
def Operands.IsIn (fragment : Fragment) : {kind : Kind} → Operands kind → Prop
  | _, .nil => True
  | _, .cons operand operands => operand.IsIn fragment ∧ operands.IsIn fragment

end

theorem Operands.isIn_iff {fragment : Fragment} : {operands : Operands kind} →
    (operands.IsIn fragment ↔ ∀ operand ∈ operands.toList, operand.IsIn fragment)
  | .nil => by simp [IsIn, toList]
  | .cons operand operands => by simp [IsIn, toList, operands.isIn_iff]

theorem Calculation.isIn_of_operands? {fragment : Fragment} {calculation : Calculation kind}
    (within : calculation.IsIn fragment) {operands : Operands kind}
    (shown : calculation.operands? = some operands) : operands.IsIn fragment := by
  cases calculation <;> cases shown
  exact within.2.2

/-- Whatever one fragment allows, the other one allows as well. -/
structure Fragment.Includes (larger smaller : Fragment) : Prop where
  input : ∀ {kind : Kind} {source : Variable kind}, smaller.input source → larger.input source
  supplied : ∀ {kind : Kind} {procedure : Procedure (Outcome kind.Value)},
    smaller.supplied procedure → larger.supplied procedure
  preceded : ∀ {procedure : Procedure Unit}, smaller.preceded procedure → larger.preceded procedure
  operation : ∀ {kind : Kind} {operation : Operation kind},
    smaller.operation operation → larger.operation operation
  reducer : ∀ {kind : Kind} {reducer : Reducer kind}, smaller.reducer reducer →
    larger.reducer reducer

mutual

theorem Calculation.isIn_mono {smaller larger : Fragment} (includes : larger.Includes smaller) :
    {kind : Kind} → (calculation : Calculation kind) → calculation.IsIn smaller →
    calculation.IsIn larger
  | _, .constant _, _ => trivial
  | _, .input _, within => includes.input within
  | _, .failing _, _ => trivial
  | _, .supplied _, within => includes.supplied within
  | _, .preceded _ operand, within =>
    ⟨includes.preceded within.1, operand.isIn_mono includes within.2⟩
  | _, .not operand, within => operand.isIn_mono includes within
  | _, .signum operand, within => operand.isIn_mono includes within
  | _, .equals lhs rhs, within =>
    ⟨lhs.isIn_mono includes within.1, rhs.isIn_mono includes within.2⟩
  | _, .conditional condition ifTrue ifFalse, within =>
    ⟨condition.isIn_mono includes within.1, ifTrue.isIn_mono includes within.2.1,
      ifFalse.isIn_mono includes within.2.2⟩
  | _, .binary _ lhs rhs, within =>
    ⟨includes.operation within.1, lhs.isIn_mono includes within.2.1,
      rhs.isIn_mono includes within.2.2⟩
  | _, .reduceLeft _ initial operands, within =>
    ⟨includes.reducer within.1, initial.isIn_mono includes within.2.1,
      operands.isIn_mono includes within.2.2⟩

theorem Operands.isIn_mono {smaller larger : Fragment} (includes : larger.Includes smaller) :
    {kind : Kind} → (operands : Operands kind) → operands.IsIn smaller → operands.IsIn larger
  | _, .nil, _ => trivial
  | _, .cons operand operands, within =>
    ⟨operand.isIn_mono includes within.1, operands.isIn_mono includes within.2⟩

end

/-- A task runs or calls nothing but what a fragment allows. -/
def Task.IsIn (fragment : Fragment) : Task kind → Prop
  | .run calculation => calculation.IsIn fragment
  | .apply operation _ _ => fragment.operation operation
  | .reduce reducer _ _ => fragment.reducer reducer

/-- The parts that a calculation in a fragment takes up are in the fragment. -/
theorem Calculation.IsIn.visit {fragment : Fragment} {tracing : Bool} {store : Store}
    {calculation : Calculation kind} (within : calculation.IsIn fragment) {visit : Visit}
    (visited : visit ∈ calculation.visits tracing store) : visit.task.IsIn fragment := by
  cases calculation with
  | constant value => simp [visits] at visited
  | input source => simp [visits] at visited
  | failing failure => simp [visits] at visited
  | supplied procedure => simp [visits] at visited
  | preceded procedure operand =>
      rw [List.mem_singleton.mp visited]
      exact within.2
  | not operand =>
      rw [List.mem_singleton.mp visited]
      exact within
  | signum operand =>
      rw [List.mem_singleton.mp visited]
      exact within
  | equals lhs rhs =>
      simp only [visits, List.mem_cons, List.not_mem_nil, or_false] at visited
      rcases visited with rfl | rfl
      · exact within.1
      · exact within.2
  | conditional condition ifTrue ifFalse =>
      rcases within with ⟨conditionWithin, ifTrueWithin, ifFalseWithin⟩
      rcases mem_visits_conditional visited with ⟨left, rfl | rfl | rfl⟩
      · exact conditionWithin
      · exact ifTrueWithin
      · exact ifFalseWithin
  | binary operation lhs rhs =>
      rcases within with ⟨allowed, lhsWithin, rhsWithin⟩
      rcases mem_visits_binary visited with ⟨left, rfl | rfl | ⟨first, second, rfl⟩⟩
      · exact lhsWithin
      · exact rhsWithin
      · exact allowed
  | reduceLeft reducer initial operands =>
      rcases within with ⟨allowed, initialWithin, operandsWithin⟩
      rcases mem_visits_reduceLeft visited with
        ⟨left, index, rfl | ⟨operand, member, rfl⟩ | ⟨before, next, rfl⟩⟩
      · exact initialWithin
      · exact Operands.isIn_iff.mp operandsWithin operand member
      · exact allowed

theorem Task.IsIn.visit {fragment : Fragment} {tracing : Bool} {store : Store} {task : Task kind}
    (within : task.IsIn fragment) {visit : Visit} (visited : visit ∈ task.visits tracing store) :
    visit.task.IsIn fragment := by
  cases task with
  | run calculation => exact Calculation.IsIn.visit within visited
  | apply operation lhs rhs => simp [visits] at visited
  | reduce reducer accumulated next => simp [visits] at visited

/-! ## All graphs -/

/-- The fragment in which nothing is forbidden. -/
def Fragment.all : Fragment where
  input _ := True
  supplied _ := True
  preceded _ := True
  operation _ := True
  reducer _ := True

mutual

theorem Calculation.isIn_all : {kind : Kind} → (calculation : Calculation kind) →
    calculation.IsIn .all
  | _, .constant _ => trivial
  | _, .input _ => trivial
  | _, .failing _ => trivial
  | _, .supplied _ => trivial
  | _, .preceded _ operand => ⟨trivial, operand.isIn_all⟩
  | _, .not operand => operand.isIn_all
  | _, .signum operand => operand.isIn_all
  | _, .equals lhs rhs => ⟨lhs.isIn_all, rhs.isIn_all⟩
  | _, .conditional condition ifTrue ifFalse =>
    ⟨condition.isIn_all, ifTrue.isIn_all, ifFalse.isIn_all⟩
  | _, .binary _ lhs rhs => ⟨trivial, lhs.isIn_all, rhs.isIn_all⟩
  | _, .reduceLeft _ initial operands => ⟨trivial, initial.isIn_all, operands.isIn_all⟩

theorem Operands.isIn_all : {kind : Kind} → (operands : Operands kind) → operands.IsIn .all
  | _, .nil => trivial
  | _, .cons operand operands => ⟨operand.isIn_all, operands.isIn_all⟩

end

/-! ## Pure graphs -/

/-- A procedure does nothing but give its result. -/
def Procedure.IsPure (procedure : Procedure α) : Prop :=
  ∃ result, procedure = .finish result

/-- The fragment of what the library itself provides, with functions that do nothing but give a
result. -/
def Fragment.pure : Fragment where
  input _ := True
  supplied _ := False
  preceded _ := False
  operation operation := ∀ lhs rhs, (operation.body lhs rhs).IsPure
  reducer reducer := ∀ accumulated next, (reducer.body accumulated next).IsPure

theorem Operation.run_call_of_isPure {operation : Operation kind} {lhs rhs : kind.Value}
    (isPure : (operation.body lhs rhs).IsPure) :
    ∃ value, ∀ tracing store, (operation.call lhs rhs).run tracing store =
      ⟨.ok value, store, [.applied operation.name (.ofValue lhs) (.ofValue rhs)]⟩ := by
  rcases isPure with ⟨value, same⟩
  refine ⟨value, fun tracing store => ?_⟩
  simp [call, same]

theorem Reducer.run_call_of_isPure {reducer : Reducer kind} {accumulated next : kind.Value}
    (isPure : (reducer.body accumulated next).IsPure) :
    ∃ outcome journal, ∀ tracing store, (reducer.call accumulated next).run tracing store =
      ⟨outcome, store, journal⟩ := by
  rcases isPure with ⟨outcome, same⟩
  cases outcome with
  | ok value =>
      refine ⟨.ok value, [.reduced reducer.name (.ofValue accumulated) (.ofValue next)], ?_⟩
      intro tracing store
      simp [call, same]
  | error failure =>
      refine ⟨.error failure, [.reduced reducer.name (.ofValue accumulated) (.ofValue next),
        .raised .reducer failure], ?_⟩
      intro tracing store
      simp [call, same, Evaluation.run_bind]

end Deferred
