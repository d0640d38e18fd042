import Deferred.Proofs.Runs

/-!
# What an evaluation demands

Running a calculation means running some of its parts, and calling functions on what came of them.
`Task.visits` gives the parts of a task in the order in which they are taken up, each with the store
it finds: this is where the policy of every combinator about its parts is written down. A visit also
says how many aggregates a failure of the part is put into on its way out.

What is demanded by a task is the task itself and whatever its parts demand. `Demands` states this
as a closure, and `Task.occurrences` lists the same occurrences in pre-order. An occurrence has a
position, which is the path of part numbers that leads to it. The list is sorted by position, so
that each position occurs once and the order of the list is the order of the graph from left to
right.
-/

namespace Deferred

variable {kind : Kind}

/-- Something that is run or called during an evaluation. -/
inductive Task (kind : Kind) where
  | run (calculation : Calculation kind)
  | apply (operation : Operation kind) (lhs rhs : kind.Value)
  | reduce (reducer : Reducer kind) (accumulated next : kind.Value)

/-- A part that a task takes up. -/
structure Visit where
  /-- The number of the part. -/
  index : Nat
  /-- The number of aggregates around a failure of the part. -/
  layers : Nat
  {kind : Kind}
  task : Task kind
  store : Store

/-- The steps that a reducing function takes, up to the first one that fails. -/
def Reducer.visits (tracing : Bool) (reducer : Reducer kind) :
    (index : Nat) → Store → kind.Value → List kind.Value → List Visit
  | _, _, _, [] => []
  | index, store, accumulated, next :: rest =>
    let step := (reducer.call accumulated next).run tracing store
    ⟨index, 0, .reduce reducer accumulated next, store⟩ ::
      match step.outcome with
      | .ok reduced => reducer.visits tracing (index + 1) step.store reduced rest
      | .error _ => []

namespace Calculation

/-- Operands that are all run, whether or not some of them fail. -/
def operandVisits (tracing : Bool) : (index : Nat) → Store → List (Calculation kind) → List Visit
  | _, _, [] => []
  | index, store, operand :: operands =>
    ⟨index, 1, .run operand, store⟩ ::
      operandVisits tracing (index + 1) (operand.evaluate.run tracing store).store operands

/-- The parts of a calculation that are taken up when it is run, in order. -/
def visits (tracing : Bool) (store : Store) : {kind : Kind} → Calculation kind → List Visit
  | _, .constant _ => []
  | _, .input _ => []
  | _, .failing _ => []
  | _, .supplied _ => []
  | _, .preceded procedure operand =>
    [⟨0, 0, .run operand, (procedure.perform.run tracing store).store⟩]
  | _, .not operand => [⟨0, 0, .run operand, store⟩]
  | _, .signum operand => [⟨0, 0, .run operand, store⟩]
  | _, .equals lhs rhs =>
    let left := lhs.evaluate.run tracing store
    [⟨0, 1, .run lhs, store⟩, ⟨1, 1, .run rhs, left.store⟩]
  | _, .conditional condition ifTrue ifFalse =>
    let selected := condition.evaluate.run tracing store
    ⟨0, 0, .run condition, store⟩ ::
      match selected.outcome with
      | .ok true => [⟨1, 0, .run ifTrue, selected.store⟩]
      | .ok false => [⟨2, 0, .run ifFalse, selected.store⟩]
      | .error _ => []
  | _, .binary operation lhs rhs =>
    let left := lhs.evaluate.run tracing store
    let right := rhs.evaluate.run tracing left.store
    ⟨0, 1, .run lhs, store⟩ :: ⟨1, 1, .run rhs, left.store⟩ ::
      match left.outcome, right.outcome with
      | .ok first, .ok second => [⟨2, 0, .apply operation first second, right.store⟩]
      | _, _ => []
  | _, .reduceLeft reducer initial operands =>
    let begun := initial.evaluate.run tracing store
    ⟨0, 0, .run initial, store⟩ ::
      match begun.outcome with
      | .ok start =>
        let collected := (Evaluation.all (operands.toList.map evaluate)).run tracing begun.store
        operandVisits tracing 1 begun.store operands.toList ++
          match collected.outcome with
          | .ok values =>
            reducer.visits tracing (operands.toList.length + 1) collected.store start values
          | .error _ => []
      | .error _ => []

end Calculation

/-! ## What follows on what

The parts that depend on an outcome follow on its value. -/

theorem Reducer.visits_cons (tracing : Bool) (reducer : Reducer kind) (index : Nat) (store : Store)
    (accumulated next : kind.Value) (rest : List kind.Value) :
    reducer.visits tracing index store accumulated (next :: rest) =
      let step := (reducer.call accumulated next).run tracing store
      ⟨index, 0, .reduce reducer accumulated next, store⟩ ::
        step.outcome.followedBy (reducer.visits tracing (index + 1) step.store · rest) := by
  simp only [visits]
  cases ((reducer.call accumulated next).run tracing store).outcome <;> rfl

namespace Calculation

variable (tracing : Bool) (store : Store)

theorem visits_conditional (condition : Calculation .bool) (ifTrue ifFalse : Calculation kind) :
    (conditional condition ifTrue ifFalse).visits tracing store =
      let selected := condition.evaluate.run tracing store
      ⟨0, 0, .run condition, store⟩ ::
        selected.outcome.followedBy fun value =>
          [⟨if value then 1 else 2, 0, .run (if value then ifTrue else ifFalse),
            selected.store⟩] := by
  simp only [visits]
  cases (condition.evaluate.run tracing store).outcome with
  | error failure => rfl
  | ok value => cases value <;> rfl

theorem visits_binary (operation : Operation kind) (lhs rhs : Calculation kind) :
    (binary operation lhs rhs).visits tracing store =
      let left := lhs.evaluate.run tracing store
      let right := rhs.evaluate.run tracing left.store
      ⟨0, 1, .run lhs, store⟩ :: ⟨1, 1, .run rhs, left.store⟩ ::
        (Outcome.both left.outcome right.outcome).followedBy fun values =>
          [⟨2, 0, .apply operation values.1 values.2, right.store⟩] := by
  simp only [visits]
  cases (lhs.evaluate.run tracing store).outcome with
  | error failure => rfl
  | ok first =>
      cases (rhs.evaluate.run tracing (lhs.evaluate.run tracing store).store).outcome <;> rfl

theorem visits_reduceLeft (reducer : Reducer kind) (initial : Calculation kind)
    (operands : Operands kind) :
    (reduceLeft reducer initial operands).visits tracing store =
      let begun := initial.evaluate.run tracing store
      let collected := (Evaluation.all (operands.toList.map evaluate)).run tracing begun.store
      ⟨0, 0, .run initial, store⟩ ::
        begun.outcome.followedBy fun start =>
          operandVisits tracing 1 begun.store operands.toList ++
            collected.outcome.followedBy fun values =>
              reducer.visits tracing (operands.toList.length + 1) collected.store start values := by
  simp only [visits]
  cases (initial.evaluate.run tracing store).outcome with
  | error failure => rfl
  | ok start =>
      cases ((Evaluation.all (operands.toList.map evaluate)).run tracing
        (initial.evaluate.run tracing store).store).outcome <;> rfl

variable {tracing store}

/-- The branch that the condition selects is taken up. -/
theorem branch_mem_visits {condition : Calculation .bool} {ifTrue ifFalse : Calculation kind}
    {value : Bool} (selected : (condition.evaluate.run tracing store).outcome = .ok value) :
    ⟨if value then 1 else 2, 0, .run (if value then ifTrue else ifFalse),
        (condition.evaluate.run tracing store).store⟩ ∈
      (conditional condition ifTrue ifFalse).visits tracing store := by
  simp [visits_conditional, selected]

/-- Operands of a fold whose initial value succeeds are taken up. -/
theorem operandVisits_subset_visits {reducer : Reducer kind} {initial : Calculation kind}
    {operands : Operands kind} {start : kind.Value}
    (begun : (initial.evaluate.run tracing store).outcome = .ok start) :
    operandVisits tracing 1 (initial.evaluate.run tracing store).store operands.toList ⊆
      (reduceLeft reducer initial operands).visits tracing store := by
  intro visit visited
  simp [visits_reduceLeft, begun, visited]

end Calculation

namespace Task

/-- What happens when a task is done. -/
def evaluate : Task kind → Evaluation kind.Value
  | run calculation => calculation.evaluate
  | apply operation lhs rhs => operation.call lhs rhs
  | reduce reducer accumulated next => reducer.call accumulated next

/-- The parts that a task takes up, in order. Functions have none. -/
def visits (tracing : Bool) (store : Store) : Task kind → List Visit
  | run calculation => calculation.visits tracing store
  | apply _ _ _ => []
  | reduce _ _ _ => []

/-- The size of the calculation that a task runs. -/
noncomputable def weight : Task kind → Nat
  | run calculation => sizeOf calculation
  | apply _ _ _ => 0
  | reduce _ _ _ => 0

end Task

theorem Operands.sizeOf_lt_of_mem {operand : Calculation kind} :
    (operands : Operands kind) → operand ∈ operands.toList → sizeOf operand < sizeOf operands
  | .nil, member => by simp [toList] at member
  | .cons first rest, member => by
      simp only [toList, List.mem_cons] at member
      rcases member with rfl | member
      · simp
        omega
      · have smaller := sizeOf_lt_of_mem rest member
        simp
        omega

theorem Calculation.mem_of_mem_operandVisits {tracing : Bool} {index : Nat} {store : Store}
    {operands : List (Calculation kind)} {visit : Visit}
    (visited : visit ∈ operandVisits tracing index store operands) :
    ∃ operand ∈ operands, ∃ left,
      visit = ⟨visit.index, 1, .run operand, left⟩ := by
  induction operands generalizing index store with
  | nil => simp [operandVisits] at visited
  | cons operand operands ih =>
      simp only [operandVisits, List.mem_cons] at visited
      rcases visited with rfl | visited
      · exact ⟨operand, by simp, store, rfl⟩
      · rcases ih visited with ⟨other, member, left, same⟩
        exact ⟨other, by simp [member], left, same⟩

theorem Reducer.mem_visits {tracing : Bool} {reducer : Reducer kind} {index : Nat} {store : Store}
    {accumulated : kind.Value} {values : List kind.Value} {visit : Visit}
    (visited : visit ∈ reducer.visits tracing index store accumulated values) :
    ∃ before next left,
      visit = ⟨visit.index, 0, .reduce reducer before next, left⟩ := by
  induction values generalizing index store accumulated with
  | nil => simp [visits] at visited
  | cons next rest ih =>
      simp only [visits, List.mem_cons] at visited
      rcases visited with rfl | visited
      · exact ⟨accumulated, next, store, rfl⟩
      · split at visited
        · exact ih visited
        · simp at visited

namespace Calculation

variable {tracing : Bool} {store : Store} {visit : Visit}

theorem mem_visits_conditional {condition : Calculation .bool} {ifTrue ifFalse : Calculation kind}
    (visited : visit ∈ (conditional condition ifTrue ifFalse).visits tracing store) :
    ∃ left, visit = ⟨0, 0, .run condition, left⟩ ∨ visit = ⟨1, 0, .run ifTrue, left⟩ ∨
      visit = ⟨2, 0, .run ifFalse, left⟩ := by
  simp only [visits_conditional, List.mem_cons, Outcome.mem_followedBy, List.not_mem_nil, or_false]
    at visited
  rcases visited with rfl | ⟨selected, _, rfl⟩
  · exact ⟨_, .inl rfl⟩
  · cases selected with
    | true => exact ⟨_, .inr (.inl rfl)⟩
    | false => exact ⟨_, .inr (.inr rfl)⟩

theorem mem_visits_binary {operation : Operation kind} {lhs rhs : Calculation kind}
    (visited : visit ∈ (binary operation lhs rhs).visits tracing store) :
    ∃ left, visit = ⟨0, 1, .run lhs, left⟩ ∨ visit = ⟨1, 1, .run rhs, left⟩ ∨
      ∃ first second, visit = ⟨2, 0, .apply operation first second, left⟩ := by
  simp only [visits_binary, List.mem_cons, Outcome.mem_followedBy, List.not_mem_nil, or_false]
    at visited
  rcases visited with rfl | rfl | ⟨values, _, rfl⟩
  · exact ⟨_, .inl rfl⟩
  · exact ⟨_, .inr (.inl rfl)⟩
  · exact ⟨_, .inr (.inr ⟨_, _, rfl⟩)⟩

theorem mem_visits_reduceLeft {reducer : Reducer kind} {initial : Calculation kind}
    {operands : Operands kind}
    (visited : visit ∈ (reduceLeft reducer initial operands).visits tracing store) :
    ∃ left index, visit = ⟨index, 0, .run initial, left⟩ ∨
      (∃ operand ∈ operands.toList, visit = ⟨index, 1, .run operand, left⟩) ∨
      ∃ before next, visit = ⟨index, 0, .reduce reducer before next, left⟩ := by
  simp only [visits_reduceLeft, List.mem_cons, Outcome.mem_followedBy, List.mem_append] at visited
  rcases visited with rfl | ⟨start, _, visited | ⟨values, _, visited⟩⟩
  · exact ⟨_, _, .inl rfl⟩
  · rcases mem_of_mem_operandVisits visited with ⟨operand, member, left, same⟩
    exact ⟨_, _, .inr (.inl ⟨operand, member, same⟩)⟩
  · rcases Reducer.mem_visits visited with ⟨before, next, left, same⟩
    exact ⟨_, _, .inr (.inr ⟨before, next, same⟩)⟩

end Calculation

namespace Task

/-- A task takes up smaller tasks only. -/
theorem weight_lt_of_mem_visits {tracing : Bool} {store : Store} {task : Task kind} {visit : Visit}
    (visited : visit ∈ task.visits tracing store) : visit.task.weight < task.weight := by
  cases task with
  | apply operation lhs rhs => simp [visits] at visited
  | reduce reducer accumulated next => simp [visits] at visited
  | run calculation =>
      simp only [visits] at visited
      cases calculation with
      | constant value => simp [Calculation.visits] at visited
      | input source => simp [Calculation.visits] at visited
      | failing failure => simp [Calculation.visits] at visited
      | supplied procedure => simp [Calculation.visits] at visited
      | preceded procedure operand =>
          simp only [Calculation.visits, List.mem_singleton] at visited
          subst visited
          simp only [weight, Calculation.preceded.sizeOf_spec]
          omega
      | not operand =>
          simp only [Calculation.visits, List.mem_singleton] at visited
          subst visited
          simp only [weight, Calculation.not.sizeOf_spec]
          omega
      | signum operand =>
          simp only [Calculation.visits, List.mem_singleton] at visited
          subst visited
          simp only [weight, Calculation.signum.sizeOf_spec]
          omega
      | equals lhs rhs =>
          simp only [Calculation.visits, List.mem_cons, List.not_mem_nil, or_false] at visited
          rcases visited with rfl | rfl <;>
            simp only [weight, Calculation.equals.sizeOf_spec] <;> omega
      | conditional condition ifTrue ifFalse =>
          rcases Calculation.mem_visits_conditional visited with ⟨left, rfl | rfl | rfl⟩ <;>
            simp only [weight, Calculation.conditional.sizeOf_spec] <;> omega
      | binary operation lhs rhs =>
          rcases Calculation.mem_visits_binary visited with ⟨left, rfl | rfl | ⟨_, _, rfl⟩⟩ <;>
            simp only [weight, Calculation.binary.sizeOf_spec] <;> omega
      | reduceLeft reducer initial operands =>
          rcases Calculation.mem_visits_reduceLeft visited with
            ⟨left, index, rfl | ⟨operand, member, rfl⟩ | ⟨_, _, rfl⟩⟩
          · simp only [weight, Calculation.reduceLeft.sizeOf_spec]
            omega
          · have smaller := Operands.sizeOf_lt_of_mem operands member
            simp only [weight, Calculation.reduceLeft.sizeOf_spec]
            omega
          · simp only [weight, Calculation.reduceLeft.sizeOf_spec]
            omega

end Task

/-- A task that is done in the course of an evaluation. -/
structure Occurrence where
  /-- The numbers of the parts that lead to the task. -/
  position : List Nat
  /-- The number of aggregates around a failure of the task. -/
  depth : Nat
  {kind : Kind}
  task : Task kind
  store : Store

namespace Occurrence

/-- An occurrence in a part, seen from the whole. -/
def inside (visit : Visit) (occurrence : Occurrence) : Occurrence :=
  { occurrence with
    position := visit.index :: occurrence.position
    depth := visit.layers + occurrence.depth }

/-- A part of what occurs. -/
def part (occurrence : Occurrence) (visit : Visit) : Occurrence :=
  ⟨occurrence.position ++ [visit.index], occurrence.depth + visit.layers, visit.task, visit.store⟩

end Occurrence

/-- What is demanded when a task is done in a store: the task itself, and every part that something
demanded takes up. -/
inductive Demands (tracing : Bool) (task : Task kind) (store : Store) : Occurrence → Prop where
  | root : Demands tracing task store ⟨[], 0, task, store⟩
  | part {occurrence : Occurrence} (demanded : Demands tracing task store occurrence)
      {visit : Visit} (visited : visit ∈ occurrence.task.visits tracing occurrence.store) :
      Demands tracing task store (occurrence.part visit)

/-- The occurrences that are demanded when a task is done in a store, in pre-order. -/
def Task.occurrences (tracing : Bool) {kind : Kind} (task : Task kind) (store : Store) :
    List Occurrence :=
  ⟨[], 0, task, store⟩ ::
    (task.visits tracing store).attach.flatMap fun ⟨visit, _⟩ =>
      (visit.task.occurrences tracing visit.store).map (.inside visit)
termination_by task.weight
decreasing_by exact weight_lt_of_mem_visits ‹_›

namespace Task

theorem occurrences_eq (tracing : Bool) (task : Task kind) (store : Store) :
    task.occurrences tracing store =
      ⟨[], 0, task, store⟩ ::
        (task.visits tracing store).flatMap fun visit =>
          (visit.task.occurrences tracing visit.store).map (.inside visit) := by
  rw [occurrences]
  simp

/-- What is observed of a task is what is observed of the task itself, and then of its parts. -/
theorem filterMap_occurrences {α : Type} (observe : Occurrence → Option α) (tracing : Bool)
    (task : Task kind) (store : Store) :
    (task.occurrences tracing store).filterMap observe =
      (observe ⟨[], 0, task, store⟩).toList ++
        (task.visits tracing store).flatMap fun visit =>
          (visit.task.occurrences tracing visit.store).filterMap fun occurrence =>
            observe (occurrence.inside visit) := by
  rw [occurrences_eq, List.filterMap_cons, List.filterMap_flatMap]
  simp only [List.filterMap_map, Function.comp_def]
  cases observe ⟨[], 0, task, store⟩ <;> rfl

/-- What holds of a task if it holds of its parts holds of every task. -/
theorem visitInduction (tracing : Bool) {motive : {kind : Kind} → Task kind → Store → Prop}
    (step : ∀ {kind : Kind} (task : Task kind) (store : Store),
      (∀ visit ∈ task.visits tracing store, motive visit.task visit.store) → motive task store)
    {kind : Kind} (task : Task kind) (store : Store) : motive task store :=
  step task store fun visit visited =>
    have := weight_lt_of_mem_visits visited
    visitInduction tracing step visit.task visit.store
termination_by task.weight

end Task

/-- What holds of a calculation if it holds of the calculations that it runs holds of every
calculation. -/
theorem Calculation.visitInduction (tracing : Bool)
    {motive : {kind : Kind} → Calculation kind → Store → Prop}
    (step : ∀ {kind : Kind} (calculation : Calculation kind) (store : Store),
      (∀ visit ∈ calculation.visits tracing store, ∀ part, visit.task = .run part →
        motive part visit.store) → motive calculation store)
    {kind : Kind} (calculation : Calculation kind) (store : Store) : motive calculation store := by
  suffices general : ∀ {kind : Kind} (task : Task kind) (store : Store),
      ∀ calculation, task = .run calculation → motive calculation store from
    general (.run calculation) store calculation rfl
  intro kind task store
  induction task, store using Task.visitInduction tracing with
  | step task store ih =>
      rintro calculation rfl
      exact step calculation store ih

namespace Task

theorem part_mem_occurrences {tracing : Bool} (task : Task kind) (store : Store)
    {occurrence : Occurrence} (listed : occurrence ∈ task.occurrences tracing store)
    {visit : Visit} (visited : visit ∈ occurrence.task.visits tracing occurrence.store) :
    occurrence.part visit ∈ task.occurrences tracing store := by
  induction task, store using visitInduction tracing generalizing occurrence with
  | step task store ih =>
      rw [occurrences_eq] at listed ⊢
      simp only [List.mem_cons, List.mem_flatMap, List.mem_map] at listed ⊢
      right
      rcases listed with rfl | ⟨above, aboveVisited, deeper, deeperListed, rfl⟩
      · refine ⟨visit, visited, ⟨[], 0, visit.task, visit.store⟩, ?_, ?_⟩
        · rw [occurrences_eq]
          exact List.mem_cons_self
        · simp [Occurrence.inside, Occurrence.part]
      · have listedBelow := ih above aboveVisited deeperListed visited
        refine ⟨above, aboveVisited, deeper.part visit, listedBelow, ?_⟩
        simp [Occurrence.inside, Occurrence.part, Nat.add_assoc]

end Task

namespace Demands

variable {tracing : Bool} {task : Task kind} {store : Store}

theorem inside {visit : Visit} (visited : visit ∈ task.visits tracing store)
    {occurrence : Occurrence} (demanded : Demands tracing visit.task visit.store occurrence) :
    Demands tracing task store (occurrence.inside visit) := by
  induction demanded with
  | root =>
      have whole : Demands tracing task store ⟨[], 0, task, store⟩ := .root
      have first := whole.part visited
      simpa [Occurrence.inside, Occurrence.part] using first
  | part _ further ih =>
      have next := ih.part further
      simpa [Occurrence.inside, Occurrence.part, Nat.add_assoc] using next

theorem mem_occurrences {occurrence : Occurrence}
    (demanded : Demands tracing task store occurrence) :
    occurrence ∈ task.occurrences tracing store := by
  induction demanded with
  | root =>
      rw [Task.occurrences_eq]
      exact List.mem_cons_self
  | part _ visited ih => exact Task.part_mem_occurrences task store ih visited

end Demands

theorem Task.demands_of_mem_occurrences {tracing : Bool} (task : Task kind) (store : Store)
    {occurrence : Occurrence} (listed : occurrence ∈ task.occurrences tracing store) :
    Demands tracing task store occurrence := by
  induction task, store using visitInduction tracing generalizing occurrence with
  | step task store ih =>
      rw [occurrences_eq] at listed
      simp only [List.mem_cons, List.mem_flatMap, List.mem_map] at listed
      rcases listed with rfl | ⟨visit, visited, deeper, deeperListed, rfl⟩
      · exact .root
      · exact (ih visit visited deeperListed).inside visited

/-- The list in pre-order holds exactly what is demanded. -/
theorem Task.mem_occurrences_iff {tracing : Bool} {task : Task kind} {store : Store}
    {occurrence : Occurrence} :
    occurrence ∈ task.occurrences tracing store ↔ Demands tracing task store occurrence :=
  ⟨demands_of_mem_occurrences task store, Demands.mem_occurrences⟩

/-! ## The order of the occurrences -/

theorem Calculation.pairwise_index_operandVisits (tracing : Bool) (index : Nat) (store : Store)
    (operands : List (Calculation kind)) :
    (operandVisits tracing index store operands).Pairwise (·.index < ·.index) ∧
      ∀ visit ∈ operandVisits tracing index store operands,
        index ≤ visit.index ∧ visit.index < index + operands.length := by
  induction operands generalizing index store with
  | nil => simp [operandVisits]
  | cons operand operands ih =>
      rcases ih (index + 1) (operand.evaluate.run tracing store).store with ⟨sorted, bounds⟩
      simp only [operandVisits, List.pairwise_cons, List.mem_cons, forall_eq_or_imp,
        List.length_cons]
      refine ⟨⟨?_, sorted⟩, ⟨by omega, by omega⟩, ?_⟩
      · intro visit visited
        have bound := bounds visit visited
        omega
      · intro visit visited
        have bound := bounds visit visited
        omega

theorem Reducer.pairwise_index_visits (tracing : Bool) (reducer : Reducer kind) (index : Nat)
    (store : Store) (accumulated : kind.Value) (values : List kind.Value) :
    (reducer.visits tracing index store accumulated values).Pairwise (·.index < ·.index) ∧
      ∀ visit ∈ reducer.visits tracing index store accumulated values, index ≤ visit.index := by
  induction values generalizing index store accumulated with
  | nil => simp [visits]
  | cons next rest ih =>
      simp only [visits_cons, List.pairwise_cons, List.mem_cons, forall_eq_or_imp, Nat.le_refl,
        true_and]
      cases ((reducer.call accumulated next).run tracing store).outcome with
      | error failure => simp
      | ok reduced =>
          rw [Outcome.followedBy_ok]
          rcases ih (index + 1) _ reduced with ⟨sorted, bounds⟩
          refine ⟨⟨?_, sorted⟩, ?_⟩
          · intro visit visited
            have bound := bounds visit visited
            omega
          · intro visit visited
            have bound := bounds visit visited
            omega

theorem Calculation.pairwise_index_visits_reduceLeft (tracing : Bool) (reducer : Reducer kind)
    (initial : Calculation kind) (operands : Operands kind) (store : Store) :
    ((reduceLeft reducer initial operands).visits tracing store).Pairwise (·.index < ·.index) := by
  simp only [visits_reduceLeft, List.pairwise_cons]
  cases (initial.evaluate.run tracing store).outcome with
  | error failure => simp
  | ok start =>
      rcases pairwise_index_operandVisits tracing 1 (initial.evaluate.run tracing store).store
        operands.toList with ⟨sorted, bounds⟩
      have steps := fun left values => Reducer.pairwise_index_visits tracing reducer
        (operands.toList.length + 1) left start values
      simp only [Outcome.followedBy_ok, List.mem_append, List.pairwise_append,
        Outcome.mem_followedBy]
      refine ⟨?_, sorted, ?_, ?_⟩
      · rintro visit (visited | ⟨values, _, visited⟩)
        · have bound := bounds visit visited
          omega
        · have bound := (steps _ values).2 visit visited
          omega
      · cases ((Evaluation.all (operands.toList.map evaluate)).run tracing
          (initial.evaluate.run tracing store).store).outcome with
        | error failure => exact List.Pairwise.nil
        | ok values => exact (steps _ values).1
      · rintro operand operandVisited step ⟨values, _, stepVisited⟩
        have operandBound := bounds operand operandVisited
        have stepBound := (steps _ values).2 step stepVisited
        omega

/-- Parts are taken up in the order of their numbers. -/
theorem Task.pairwise_index_visits (tracing : Bool) (task : Task kind) (store : Store) :
    (task.visits tracing store).Pairwise (·.index < ·.index) := by
  cases task with
  | apply operation lhs rhs => exact List.Pairwise.nil
  | reduce reducer accumulated next => exact List.Pairwise.nil
  | run calculation =>
      cases calculation with
      | constant value => exact List.Pairwise.nil
      | input source => exact List.Pairwise.nil
      | failing failure => exact List.Pairwise.nil
      | supplied procedure => exact List.Pairwise.nil
      | preceded procedure operand => exact List.pairwise_singleton _ _
      | not operand => exact List.pairwise_singleton _ _
      | signum operand => exact List.pairwise_singleton _ _
      | equals lhs rhs => simp [visits, Calculation.visits]
      | conditional condition ifTrue ifFalse =>
          simp only [visits, Calculation.visits, List.pairwise_cons]
          split <;> simp
      | binary operation lhs rhs =>
          simp only [visits, Calculation.visits, List.pairwise_cons]
          split <;> simp
      | reduceLeft reducer initial operands =>
          exact Calculation.pairwise_index_visits_reduceLeft tracing reducer initial operands store

/-- The occurrences are listed in the order of their positions: a task before its parts, and
everything in a part before everything in the parts after it. -/
theorem Task.pairwise_position_occurrences (tracing : Bool) (task : Task kind) (store : Store) :
    (task.occurrences tracing store).Pairwise (·.position < ·.position) := by
  induction task, store using visitInduction tracing with
  | step task store ih =>
      rw [occurrences_eq, List.pairwise_cons, List.pairwise_flatMap]
      refine ⟨?_, ?_, ?_⟩
      · intro occurrence listed
        simp only [List.mem_flatMap, List.mem_map] at listed
        rcases listed with ⟨visit, _, deeper, _, rfl⟩
        exact List.nil_lt_cons _ _
      · intro visit visited
        rw [List.pairwise_map]
        apply (ih visit visited).imp
        intro first second before
        exact List.cons_lt_cons_self.mpr before
      · apply (pairwise_index_visits tracing task store).imp
        intro first second before firstInside firstListed secondInside secondListed
        rcases List.mem_map.mp firstListed with ⟨_, _, rfl⟩
        rcases List.mem_map.mp secondListed with ⟨_, _, rfl⟩
        exact List.cons_lt_cons_iff.mpr (Or.inl before)

end Deferred
