import Deferred.Proofs.Cells
import Deferred.Session

/-!
# Handles of a session

Whatever a session builds, it builds from the handles that its scope gives it, and building touches
no cell. So if all handles in the scope are on existing cells, this is so for every calculation that
is built, and it stays so from step to step.
-/

namespace Deferred

variable {kind : Kind} {α β : Type} {known : Cell → Prop}

/-! ## Library functions -/

/-- A function found by name does nothing but give a value. -/
theorem Operation.isPure_of_named? {name : String} {operation : Operation kind}
    (found : named? kind name = some operation) : Fragment.pure.operation operation := by
  intro lhs rhs
  cases kind <;>
  · simp only [named?, Option.map_eq_some_iff] at found
    rcases found with ⟨apply, _, rfl⟩
    exact ⟨_, rfl⟩

/-- A reducing function found by name does nothing but give a value or fail. -/
theorem Reducer.isPure_of_named? {name : String} {reducer : Reducer kind}
    (found : named? kind name = some reducer) : Fragment.pure.reducer reducer := by
  intro accumulated next
  unfold named? at found
  split at found
  · cases found
    exact ⟨_, rfl⟩
  · cases found
    exact ⟨_, rfl⟩
  · cases found
    exact ⟨_, rfl⟩
  · rcases Option.map_eq_some_iff.mp found with ⟨operation, operationFound, rfl⟩
    rcases Operation.isPure_of_named? operationFound accumulated next with ⟨value, same⟩
    exact ⟨.ok value, by simp [ofOperation, same]⟩

theorem Reduction.isPure_of_resolve? {reduction : Reduction} {reducer : Reducer kind}
    (resolved : reduction.resolve? kind = some reducer) : Fragment.pure.reducer reducer := by
  cases reduction with
  | named name => exact Reducer.isPure_of_named? resolved
  | failingOn value failure =>
      rcases Option.map_eq_some_iff.mp resolved with ⟨value, _, rfl⟩
      exact fun accumulated next => ⟨_, rfl⟩

theorem Procedure.IsPure.isOver {procedure : Procedure α} (isPure : procedure.IsPure) :
    procedure.IsOver known := by
  rcases isPure with ⟨result, rfl⟩
  trivial

/-! ## Building -/

theorem Builder.run_lift_eq_some {option : Option α} {store left : Store} {value : α}
    (ran : (liftM option : Builder α).run store = some (value, left)) :
    option = some value ∧ left = store := by
  cases option with
  | none => cases ran
  | some found =>
      cases ran
      exact ⟨rfl, rfl⟩

/-- Whatever is built has a property, and building touches no cell. -/
def Builder.Gives (builder : Builder α) (property : α → Prop) : Prop :=
  ∀ store left built, builder.run store = some (built, left) →
    property built ∧ left.contents = store.contents

namespace Builder.Gives

variable {property : α → Prop} {result : β → Prop}

theorem pure {value : α} (holds : property value) : (pure value : Builder α).Gives property := by
  intro store left built ran
  cases ran
  exact ⟨holds, rfl⟩

theorem failure : (failure : Builder α).Gives property := by
  intro store left built ran
  cases ran

theorem lift {option : Option α} (each : ∀ value, option = some value → property value) :
    (liftM option : Builder α).Gives property := by
  intro store left built ran
  rcases run_lift_eq_some ran with ⟨found, rfl⟩
  exact ⟨each built found, rfl⟩

theorem bind {builder : Builder α} {rest : α → Builder β} (begun : builder.Gives property)
    (goesOn : ∀ value, property value → (rest value).Gives result) :
    (builder >>= rest).Gives result := by
  intro store left built ran
  rw [StateT.run_bind] at ran
  rcases Option.bind_eq_some_iff.mp ran with ⟨⟨value, middle⟩, first, second⟩
  rcases begun _ _ _ first with ⟨holds, same⟩
  rcases goesOn value holds _ _ _ second with ⟨resultHolds, sameAfter⟩
  exact ⟨resultHolds, sameAfter.trans same⟩

/-- What is made of something that was built. -/
theorem map {builder : Builder α} {function : α → β} (given : builder.Gives property)
    (keeps : ∀ value, property value → result (function value)) :
    (builder >>= fun value => Pure.pure (function value)).Gives result :=
  given.bind fun value holds => .pure (keeps value holds)

theorem newSlot : Builder.newSlot.Gives fun _ => True := by
  intro store left built ran
  cases ran
  exact ⟨trivial, Store.contents_createSlot⟩

theorem fit {own : Kind} {fragment : Fragment} {builder : Builder (Calculation own)}
    (given : builder.Gives (·.IsIn fragment)) :
    (Builder.fit kind builder).Gives (·.IsIn fragment) := by
  unfold Builder.fit
  split
  · next same =>
    subst same
    exact given
  · exact failure

/-- A fold that starts with a constant has no handles but those of its operands and of its reducing
function. -/
theorem fold {own : Kind} {known : Cell → Prop} {builder : Builder (Operands own)}
    {reducer : Reducer own} {start : own.Value} (given : builder.Gives (·.IsIn (.over known)))
    (isOver : (Fragment.over known).reducer reducer) :
    (Builder.fit kind (builder >>= fun operands =>
      Pure.pure (.reduceLeft reducer (.constant start) operands))).Gives (·.IsIn (.over known)) :=
  (given.map fun _ operandsIn => ⟨isOver, trivial, operandsIn⟩).fit

end Builder.Gives

/-! ## Scopes -/

/-- All handles that a name stands for are on known cells. -/
def Binding.IsOver (known : Cell → Prop) : Binding → Prop
  | .cell source => known source.cell
  | .node calculation operands =>
    calculation.IsIn (.over known) ∧ ∀ shown ∈ operands, shown.IsIn (.over known)
  | .failing _ => True

/-- All handles in a scope are on known cells. -/
def Scope.IsOver (known : Cell → Prop) (scope : Scope) : Prop :=
  ∀ name binding, scope.find? name = some binding → binding.IsOver known

theorem Binding.isOver_mono {smaller larger : Cell → Prop}
    (includes : ∀ cell, smaller cell → larger cell) {binding : Binding}
    (isOver : binding.IsOver smaller) : binding.IsOver larger := by
  have wider := Fragment.includes_over includes
  cases binding with
  | cell source => exact includes _ isOver
  | node calculation operands =>
      refine ⟨calculation.isIn_mono wider isOver.1, ?_⟩
      intro shown isShown
      exact shown.isIn_mono wider (isOver.2 shown isShown)
  | failing failure => trivial

namespace Scope.IsOver

variable {scope : Scope}

theorem mono {smaller larger : Cell → Prop} (isOver : scope.IsOver smaller)
    (includes : ∀ cell, smaller cell → larger cell) : scope.IsOver larger :=
  fun name binding found => Binding.isOver_mono includes (isOver name binding found)

theorem insert (isOver : scope.IsOver known) (name : String) {binding : Binding}
    (bindingOver : binding.IsOver known) : (scope.insert name binding).IsOver known := by
  intro other found isFound
  by_cases same : other = name
  · subst same
    rw [find?_insert_self] at isFound
    cases isFound
    exact bindingOver
  · rw [find?_insert_of_ne scope binding same] at isFound
    exact isOver other found isFound

theorem erase (isOver : scope.IsOver known) (name : String) : (scope.erase name).IsOver known := by
  intro other found isFound
  by_cases same : other = name
  · subst same
    rw [find?_erase_self] at isFound
    cases isFound
  · rw [find?_erase_of_ne scope same] at isFound
    exact isOver other found isFound

end Scope.IsOver

theorem Binding.IsOver.calculation? {binding : Binding} (isOver : binding.IsOver known)
    {calculation : Calculation kind} (fits : binding.calculation? kind = some calculation) :
    calculation.IsIn (.over known) := by
  cases binding with
  | cell source =>
      simp only [Binding.calculation?] at fits
      split at fits
      · next same =>
        subst same
        cases fits
        exact isOver
      · cases fits
  | node own operands =>
      simp only [Binding.calculation?] at fits
      split at fits
      · next same =>
        subst same
        cases fits
        exact isOver.1
      · cases fits
  | failing failure =>
      cases fits
      trivial

theorem Operands.IsIn.consRepeat {fragment : Fragment} (count : Nat) {operand : Calculation kind}
    (within : operand.IsIn fragment) {operands : Operands kind}
    (others : operands.IsIn fragment) : (consRepeat count operand operands).IsIn fragment := by
  rw [isIn_iff, toList_consRepeat]
  intro other member
  rcases List.mem_append.mp member with member | member
  · rw [List.eq_of_mem_replicate member]
    exact within
  · exact isIn_iff.mp others other member

/-- A layer has no handles of its own. -/
theorem Layer.isIn_around? {layer : Layer} {around : Calculation kind → Calculation kind}
    (serves : layer.around? kind = some around) {operand : Calculation kind}
    (within : operand.IsIn (.over known)) : (around operand).IsIn (.over known) := by
  cases kind <;> cases layer <;> cases serves
  all_goals first
    | exact within
    | exact ⟨trivial, within, trivial⟩
    | exact ⟨within, trivial⟩
    | exact ⟨within, within⟩
    | exact ⟨fun _ _ => trivial, within, trivial⟩
    | exact ⟨fun _ _ => trivial, trivial, within, trivial⟩
    | exact ⟨fun _ _ => trivial, trivial, within, within, trivial⟩

/-- Layers have no handles of their own, however many there are. -/
theorem isIn_repeat {fragment : Fragment} {around : Calculation kind → Calculation kind}
    (keeps : ∀ operand, operand.IsIn fragment → (around operand).IsIn fragment) (count : Nat)
    {operand : Calculation kind} (within : operand.IsIn fragment) :
    (Nat.repeat around count operand).IsIn fragment := by
  induction count with
  | zero => exact within
  | succ count ih => exact keeps _ ih

mutual

/-- What is built from a scope has no handles but those of the scope. -/
theorem Expression.build_gives {scope : Scope} (isOver : scope.IsOver known) :
    (expression : Expression) → (kind : Kind) →
    (expression.build scope kind).Gives (·.IsIn (.over known))
  | .literal value, kind => by
      rw [Expression.build]
      apply (Builder.Gives.lift fun _ _ => trivial).bind
      intro value _
      exact .pure trivial
  | .reference name, kind => by
      rw [Expression.build]
      apply (Builder.Gives.lift fun binding found => isOver name binding found).bind
      intro binding bindingOver
      exact .lift fun calculation fits => bindingOver.calculation? fits
  | .failing failure, kind => by
      rw [Expression.build]
      exact .pure trivial
  | .conditional condition ifTrue ifFalse, kind => by
      rw [Expression.build]
      apply (condition.build_gives isOver .bool).bind
      intro condition conditionIn
      apply (ifTrue.build_gives isOver kind).bind
      intro ifTrue ifTrueIn
      apply (ifFalse.build_gives isOver kind).bind
      intro ifFalse ifFalseIn
      exact .pure ⟨conditionIn, ifTrueIn, ifFalseIn⟩
  | .binary function lhs rhs, kind => by
      rw [Expression.build]
      apply (Builder.Gives.lift fun operation found => Operation.isPure_of_named? found).bind
      intro operation isPure
      apply (lhs.build_gives isOver kind).bind
      intro lhs lhsIn
      apply (rhs.build_gives isOver kind).bind
      intro rhs rhsIn
      exact .pure ⟨fun left right => (isPure left right).isOver, lhsIn, rhsIn⟩
  | .reduceLeft reduction initial operands, kind => by
      rw [Expression.build]
      apply (Builder.Gives.lift fun reducer found => Reduction.isPure_of_resolve? found).bind
      intro reducer isPure
      apply (initial.build_gives isOver kind).bind
      intro initial initialIn
      apply (operands.build_gives isOver kind).bind
      intro operands operandsIn
      exact .pure ⟨fun left right => (isPure left right).isOver, initialIn, operandsIn⟩
  | .copy operand, kind => operand.build_gives isOver kind
  | .handle operand, kind => operand.build_gives isOver kind
  | .layered 0 _ operand, kind => operand.build_gives isOver kind
  | .layered (count + 1) layer operand, kind => by
      rw [Expression.build]
      apply (Builder.Gives.lift fun around serves => serves).bind
      intro around serves
      apply (operand.build_gives isOver kind).bind
      intro operand operandIn
      exact .pure (isIn_repeat (fun _ within => Layer.isIn_around? serves within) _ operandIn)
  | .labelled label operand, kind => by
      rw [Expression.build]
      exact (operand.build_gives isOver kind).map fun _ operandIn => ⟨trivial, operandIn⟩
  | .script label first others, kind => by
      rw [Expression.build]
      apply (Builder.Gives.lift fun _ _ => trivial).bind
      intro first _
      apply (Builder.Gives.lift fun _ _ => trivial).bind
      intro others _
      apply Builder.Gives.newSlot.bind
      intro slot _
      exact .pure fun _ => trivial
  | .setting target value operand, kind => by
      rw [Expression.build]
      split
      · next target found =>
        apply (Builder.Gives.lift fun _ _ => trivial).bind
        intro value _
        apply (operand.build_gives isOver kind).bind
        intro operand operandIn
        exact .pure ⟨⟨isOver _ _ found, trivial⟩, operandIn⟩
      · exact .failure
  | .signum operand, kind => by
      rw [Expression.build]
      exact .fit (.map (operand.build_gives isOver .int) fun _ operandIn => operandIn)
  | .difference lhs rhs, kind => by
      rw [Expression.build]
      apply Builder.Gives.fit
      apply (lhs.build_gives isOver .int).bind
      intro lhs lhsIn
      apply (rhs.build_gives isOver .int).bind
      intro rhs rhsIn
      exact .pure ⟨fun _ _ => trivial, lhsIn, rhsIn⟩
  | .sum operands, kind => by
      rw [Expression.build]
      exact .fold (operands.build_gives isOver .int) fun _ _ => trivial
  | .product operands, kind => by
      rw [Expression.build]
      exact .fold (operands.build_gives isOver .int) fun _ _ => trivial
  | .checkedSum operands, kind => by
      rw [Expression.build]
      exact .fold (operands.build_gives isOver .int) fun _ _ => trivial
  | .checkedProduct operands, kind => by
      rw [Expression.build]
      exact .fold (operands.build_gives isOver .int) fun _ _ => trivial
  | .not operand, kind => by
      rw [Expression.build]
      exact .fit (.map (operand.build_gives isOver .bool) fun _ operandIn => operandIn)
  | .equals operandKind lhs rhs, kind => by
      rw [Expression.build]
      apply Builder.Gives.fit
      apply (lhs.build_gives isOver operandKind).bind
      intro lhs lhsIn
      apply (rhs.build_gives isOver operandKind).bind
      intro rhs rhsIn
      exact .pure ⟨lhsIn, rhsIn⟩

theorem Expressions.build_gives {scope : Scope} (isOver : scope.IsOver known) :
    (expressions : Expressions) → (kind : Kind) →
    (expressions.build scope kind).Gives (·.IsIn (.over known))
  | .nil, kind => by
      rw [Expressions.build]
      exact .pure trivial
  | .cons count operand operands, kind => by
      rw [Expressions.build]
      apply (operand.build_gives isOver kind).bind
      intro operand operandIn
      apply (operands.build_gives isOver kind).bind
      intro operands operandsIn
      exact .pure (.consRepeat count operandIn operandsIn)

end

end Deferred
