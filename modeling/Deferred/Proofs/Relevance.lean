import Deferred.Proofs.Effects
import Deferred.Proofs.Rebuilding
import Deferred.Proofs.Traversal

/-!
# What matters for an evaluation

What a pure graph comes to depends on two things only: on the parts that are demanded, and on the
variables that are read in their course. `Calculation.replaced` puts other calculations in the place
of some parts of a graph. If none of these parts is demanded, and if another store holds the same in
all variables that are read, the other graph repeats in the other store what the graph does here:
the outcome and the journal are the same, and what is demanded stands at the same positions.

The proof takes both runs through the graph in lockstep. `Evaluation.Repeats` relates the two runs
of a part, and one rule for each combinator passes this on from the parts to the whole.
-/

namespace Deferred

variable {kind : Kind} {α β : Type}

/-- What is put in the place of calculations, by position. It may make use of what stood there. -/
abbrev Replacement := List Nat → Option ((kind : Kind) → Calculation kind → Calculation kind)

namespace Replacement

/-- Leaves everything in its place. -/
def nothing : Replacement :=
  fun _ => none

/-- What is put in place in one of the parts. -/
def part (replacement : Replacement) (index : Nat) : Replacement :=
  fun position => replacement (index :: position)

/-- Puts a calculation in the place of another one, or otherwise leaves it there. -/
def placement (replacement : Replacement) : Placement :=
  fun position kind own rebuilt => (replacement position).elim rebuilt fun put => put kind own

theorem placement_of_none {replacement : Replacement} {position : List Nat}
    (stays : replacement position = none) (own rebuilt : Calculation kind) :
    replacement.placement position kind own rebuilt = rebuilt := by
  simp [placement, stays]

end Replacement

/-- Puts calculations in the place of parts of a graph. -/
def Calculation.replaced (replacement : Replacement) (calculation : Calculation kind) :
    Calculation kind :=
  calculation.rebuilt replacement.placement

theorem Calculation.replaced_nothing (calculation : Calculation kind) :
    calculation.replaced .nothing = calculation :=
  calculation.rebuilt_nothing

/-- Puts calculations in the place of parts of what a task runs. -/
def Task.replaced (replacement : Replacement) : Task kind → Task kind
  | .run calculation => .run (calculation.replaced replacement)
  | .apply operation lhs rhs => .apply operation lhs rhs
  | .reduce reducer accumulated next => .reduce reducer accumulated next

/-- The part that is taken up in a store elsewhere. -/
def Visit.replaced (replacement : Replacement) (elsewhere : Store) (visit : Visit) : Visit :=
  { visit with task := visit.task.replaced (replacement.part visit.index), store := elsewhere }

/-- A variable is read in the course of a run. -/
def Run.Reads (run : Run α) (source : Variable kind) : Prop :=
  ∃ value, Entry.read source value ∈ run.journal

/-- What is true elsewhere of what is noted in the whole is true of what is noted in a part. -/
theorem Task.isTrueOf_visit {tracing : Bool} {store elsewhere : Store} {task : Task kind}
    (admitted : ∀ entry ∈ (task.evaluate.run tracing store).journal, entry.IsTrueOf elsewhere)
    {visit : Visit} (visited : visit ∈ task.visits tracing store) :
    ∀ entry ∈ (visit.task.evaluate.run tracing visit.store).journal, entry.IsTrueOf elsewhere := by
  intro entry noted
  cases isEvent : entry.isEvent with
  | true => cases entry <;> trivial
  | false =>
      have kept : entry ∈ (task.evaluate.run tracing store).journal.filter (!·.isEvent) := by
        rw [filter_journal fun _ => rfl]
        apply List.mem_append_right
        apply List.mem_flatMap_of_mem visited
        exact List.mem_filter.mpr ⟨noted, by simp [isEvent]⟩
      exact admitted entry (List.mem_filter.mp kept).1

/-! ## Two runs in lockstep -/

/-- An evaluation does elsewhere what another one does here, and leaves the store elsewhere as it
is. -/
structure Evaluation.Repeats (tracing : Bool) (here elsewhere : Store) (own other : Evaluation α) :
    Prop where
  run_eq : other.run tracing elsewhere =
    ⟨(own.run tracing here).outcome, elsewhere, (own.run tracing here).journal⟩

namespace Evaluation.Repeats

variable {tracing : Bool} {here elsewhere : Store}

theorem of_steady {evaluation : Evaluation α} {outcome : Outcome α} {journal : List Entry}
    (steady : ∀ store, evaluation.run tracing store = ⟨outcome, store, journal⟩) :
    evaluation.Repeats tracing here elsewhere evaluation :=
  ⟨by rw [steady here, steady elsewhere]⟩

theorem map (function : α → β) {own other : Evaluation α}
    (repeats : own.Repeats tracing here elsewhere other) :
    (function <$> own).Repeats tracing here elsewhere (function <$> other) :=
  ⟨by rw [run_map, run_map, repeats.run_eq]⟩

theorem attempt {own other : Evaluation α} (repeats : own.Repeats tracing here elsewhere other) :
    own.attempt.Repeats tracing here elsewhere other.attempt :=
  ⟨by rw [run_attempt, run_attempt, repeats.run_eq]⟩

theorem reportingFailure (event : Failure → Event) {own other : Evaluation α}
    (repeats : own.Repeats tracing here elsewhere other) :
    (own.reportingFailure event).Repeats tracing here elsewhere (other.reportingFailure event) :=
  ⟨by rw [run_reportingFailure_eq, run_reportingFailure_eq, repeats.run_eq]⟩

/-- The first part leaves both stores as they are, so that the rest finds them again. -/
theorem bind {first otherFirst : Evaluation α} {rest otherRest : α → Evaluation β}
    (readOnly : first.Respects .readOnly) (begun : first.Repeats tracing here elsewhere otherFirst)
    (goesOn : ∀ value, (first.run tracing here).outcome = .ok value →
      (rest value).Repeats tracing here elsewhere (otherRest value)) :
    (first >>= rest).Repeats tracing here elsewhere (otherFirst >>= otherRest) := by
  constructor
  rw [run_bind, run_bind, begun.run_eq]
  cases ran : (first.run tracing here).outcome with
  | ok value => simp only [readOnly.store_eq, (goesOn value ran).run_eq]
  | error failure => rfl

theorem both {lhs otherLhs : Evaluation α} {rhs otherRhs : Evaluation β}
    (readOnly : lhs.Respects .readOnly) (left : lhs.Repeats tracing here elsewhere otherLhs)
    (right : rhs.Repeats tracing here elsewhere otherRhs) :
    (both lhs rhs).Repeats tracing here elsewhere (both otherLhs otherRhs) := by
  constructor
  simp only [run_both, left.run_eq, right.run_eq, readOnly.store_eq]

theorem all {own other : List (Evaluation α)}
    (readOnly : ∀ evaluation ∈ own, evaluation.Respects .readOnly)
    (repeats : (outcomes own).Repeats tracing here elsewhere (outcomes other)) :
    (all own).Repeats tracing here elsewhere (all other) := by
  apply bind (.outcomes readOnly) repeats
  intro collected _
  apply bind (.check _)
  · exact of_steady fun store => run_check tracing store (Outcome.failures collected)
  · intro _ _
    exact of_steady fun store => run_pure tracing store (Outcome.values collected)

theorem conditional {condition otherCondition : Evaluation Bool}
    {ifTrue ifFalse otherTrue otherFalse : Evaluation α} (readOnly : condition.Respects .readOnly)
    (selecting : condition.Repeats tracing here elsewhere otherCondition)
    (selected : ∀ value, (condition.run tracing here).outcome = .ok value →
      (if value then ifTrue else ifFalse).Repeats tracing here elsewhere
        (if value then otherTrue else otherFalse)) :
    (condition.conditional ifTrue ifFalse).Repeats tracing here elsewhere
      (otherCondition.conditional otherTrue otherFalse) := by
  apply (selecting.reportingFailure _).bind (readOnly.reportingFailure _)
  intro value succeeds
  rw [outcome_reportingFailure] at succeeds
  exact selected value succeeds

theorem binary {function : α → α → Evaluation α} {lhs rhs otherLhs otherRhs : Evaluation α}
    (leftReadOnly : lhs.Respects .readOnly) (rightReadOnly : rhs.Respects .readOnly)
    (called : ∀ first second,
      (function first second).Repeats tracing here elsewhere (function first second))
    (left : lhs.Repeats tracing here elsewhere otherLhs)
    (right : rhs.Repeats tracing here elsewhere otherRhs) :
    (binary function lhs rhs).Repeats tracing here elsewhere
      (binary function otherLhs otherRhs) := by
  apply (left.both leftReadOnly right).bind (leftReadOnly.both rightReadOnly)
  intro values _
  exact called values.1 values.2

theorem reduceLeft {reduce : α → α → Evaluation α} {initial otherInitial : Evaluation α}
    {own other : List (Evaluation α)} (sameLength : other.length = own.length)
    (readOnly : initial.Respects .readOnly)
    (allReadOnly : ∀ evaluation ∈ own, evaluation.Respects .readOnly)
    (called : ∀ start values, (reduceFrom reduce 0 start values).Repeats tracing here elsewhere
      (reduceFrom reduce 0 start values))
    (starting : initial.Repeats tracing here elsewhere otherInitial)
    (collecting : ∀ start, (initial.run tracing here).outcome = .ok start →
      (outcomes own).Repeats tracing here elsewhere (outcomes other)) :
    (reduceLeft reduce initial own).Repeats tracing here elsewhere
      (reduceLeft reduce otherInitial other) := by
  unfold Evaluation.reduceLeft
  rw [sameLength]
  apply (starting.reportingFailure _).bind (readOnly.reportingFailure _)
  intro start begun
  rw [outcome_reportingFailure] at begun
  apply ((collecting start begun).all allReadOnly).bind (.all allReadOnly)
  intro values _
  exact called start values

end Evaluation.Repeats

theorem Reducer.repeats_reduceFrom {tracing : Bool} {here elsewhere : Store}
    {reducer : Reducer kind} (isPure : Fragment.pure.reducer reducer) (step : Nat)
    (accumulated : kind.Value) (values : List kind.Value) :
    (Evaluation.reduceFrom reducer.call step accumulated values).Repeats tracing here elsewhere
      (Evaluation.reduceFrom reducer.call step accumulated values) := by
  induction values generalizing step accumulated with
  | nil => exact Evaluation.Repeats.of_steady fun store => rfl
  | cons next rest ih =>
      rcases run_call_of_isPure (isPure accumulated next) with ⟨outcome, journal, called⟩
      have readOnly := Fragment.readOnly_pure.reducer isPure accumulated next
      apply Evaluation.Repeats.bind (readOnly.reportingFailure _)
      · apply Evaluation.Repeats.reportingFailure
        exact Evaluation.Repeats.of_steady (called tracing)
      · intro reduced _
        exact ih (step + 1) reduced

theorem Reducer.visits_replaced (tracing : Bool) {reducer : Reducer kind}
    (isPure : Fragment.pure.reducer reducer) (replacement : Replacement) (here elsewhere : Store)
    (index : Nat) (accumulated : kind.Value) (values : List kind.Value) :
    reducer.visits tracing index elsewhere accumulated values =
      (reducer.visits tracing index here accumulated values).map
        (.replaced replacement elsewhere) := by
  induction values generalizing index accumulated with
  | nil => rfl
  | cons next rest ih =>
      rcases run_call_of_isPure (isPure accumulated next) with ⟨outcome, journal, called⟩
      simp only [visits, called, List.map_cons]
      cases outcome with
      | ok reduced => exact congrArg (_ :: ·) (ih (index + 1) reduced)
      | error failure => rfl

namespace Calculation

variable {tracing : Bool} {here elsewhere : Store} {replacement : Replacement}

/-- Operands that repeat one after the other what is done here repeat it together. -/
theorem repeats_outcomes : (operands : Operands kind) → operands.IsIn .pure → (index : Nat) →
    (∀ visit ∈ operandVisits tracing index here operands.toList,
      visit.task.evaluate.Repeats tracing visit.store elsewhere
        (visit.task.replaced (replacement.part visit.index)).evaluate) →
    (Evaluation.outcomes (operands.toList.map evaluate)).Repeats tracing here elsewhere
      (Evaluation.outcomes ((operands.rebuilt replacement.placement index).toList.map evaluate))
  | .nil, _, _, _ => .of_steady fun store => rfl
  | .cons operand operands, within, index, parts => by
      have readOnly := operand.respects Fragment.readOnly_pure within.1
      simp only [Operands.toList, operandVisits, List.mem_cons, forall_eq_or_imp] at parts
      rcases parts with ⟨first, others⟩
      rw [readOnly.store_eq] at others
      apply first.attempt.bind readOnly.attempt
      intro outcome _
      exact (repeats_outcomes operands within.2 (index + 1) others).map _

/-- Operands that repeat what is done here are the ones that are taken up elsewhere. -/
theorem operandVisits_replaced : (operands : Operands kind) → operands.IsIn .pure →
    (index : Nat) →
    (∀ visit ∈ operandVisits tracing index here operands.toList,
      visit.task.evaluate.Repeats tracing visit.store elsewhere
        (visit.task.replaced (replacement.part visit.index)).evaluate) →
    operandVisits tracing index elsewhere
        (operands.rebuilt replacement.placement index).toList =
      (operandVisits tracing index here operands.toList).map (.replaced replacement elsewhere)
  | .nil, _, _, _ => rfl
  | .cons operand operands, within, index, parts => by
      have readOnly := operand.respects Fragment.readOnly_pure within.1
      simp only [Operands.toList, operandVisits, List.mem_cons, forall_eq_or_imp] at parts
      rcases parts with ⟨first, others⟩
      rw [readOnly.store_eq] at others
      have ran : (operand.rebuilt (replacement.placement.part index)).evaluate.run tracing
          elsewhere = _ := first.run_eq
      simp only [Operands.rebuilt, Operands.toList, operandVisits, readOnly.store_eq, ran,
        operandVisits_replaced operands within.2 (index + 1) others]
      rfl

/-- A calculation that is not replaced itself repeats elsewhere what it does here, if its parts
do. -/
theorem repeats_of_parts {calculation : Calculation kind} (isPure : calculation.IsIn .pure)
    (admitted : ∀ entry ∈ (calculation.evaluate.run tracing here).journal,
      entry.IsTrueOf elsewhere)
    (stays : replacement [] = none)
    (parts : ∀ visit ∈ calculation.visits tracing here,
      visit.task.evaluate.Repeats tracing visit.store elsewhere
        (visit.task.replaced (replacement.part visit.index)).evaluate) :
    calculation.evaluate.Repeats tracing here elsewhere
      (calculation.replaced replacement).evaluate := by
  cases calculation <;> rw [replaced, rebuilt, Replacement.placement_of_none stays]
  case constant value => exact .of_steady fun store => rfl
  case input source =>
      have same : here.read source = elsewhere.read source :=
        admitted _ (List.mem_singleton.mpr rfl)
      constructor
      rw [evaluate_input, Evaluation.run_read, Evaluation.run_read, same]
  case failing failure => exact .of_steady fun store => rfl
  case supplied procedure => exact isPure.elim
  case preceded procedure operand => exact isPure.1.elim
  case not operand =>
      have inner := parts _ (List.mem_singleton.mpr rfl)
      exact (inner.reportingFailure _).map _
  case signum operand =>
      have inner := parts _ (List.mem_singleton.mpr rfl)
      exact (inner.reportingFailure _).map _
  case equals lhs rhs =>
      have readOnly := lhs.respects Fragment.readOnly_pure isPure.1
      have left := parts _ List.mem_cons_self
      have right := parts _ (List.mem_cons_of_mem _ List.mem_cons_self)
      rw [readOnly.store_eq] at right
      exact (left.both readOnly right).map _
  case conditional condition ifTrue ifFalse =>
      have readOnly := condition.respects Fragment.readOnly_pure isPure.1
      have selecting := parts _ List.mem_cons_self
      apply selecting.conditional readOnly
      intro value selected
      have branch := parts _ (branch_mem_visits selected)
      rw [readOnly.store_eq] at branch
      cases value <;> exact branch
  case binary operation lhs rhs =>
      have leftReadOnly := lhs.respects Fragment.readOnly_pure isPure.2.1
      have rightReadOnly := rhs.respects Fragment.readOnly_pure isPure.2.2
      have left := parts _ List.mem_cons_self
      have right := parts _ (List.mem_cons_of_mem _ List.mem_cons_self)
      rw [leftReadOnly.store_eq] at right
      apply left.binary leftReadOnly rightReadOnly _ right
      intro first second
      rcases Operation.run_call_of_isPure (isPure.1 first second) with ⟨value, called⟩
      exact .of_steady (called tracing)
  case reduceLeft reducer initial operands =>
      have readOnly := initial.respects Fragment.readOnly_pure isPure.2.1
      have starting := parts _ List.mem_cons_self
      rw [evaluate_reduceLeft, evaluate_reduceLeft]
      apply starting.reduceLeft _ readOnly
        (operands.respects Fragment.readOnly_pure isPure.2.2)
        (Reducer.repeats_reduceFrom isPure.1 0)
      · intro start begun
        have operandParts := fun visit visited =>
          parts visit (operandVisits_subset_visits begun visited)
        rw [readOnly.store_eq] at operandParts
        exact repeats_outcomes operands isPure.2.2 1 operandParts
      · simp

/-- A calculation that is not replaced itself takes up elsewhere the parts that it takes up here, if
they repeat what they do here. -/
theorem visits_replaced {calculation : Calculation kind} (isPure : calculation.IsIn .pure)
    (stays : replacement [] = none)
    (parts : ∀ visit ∈ calculation.visits tracing here,
      visit.task.evaluate.Repeats tracing visit.store elsewhere
        (visit.task.replaced (replacement.part visit.index)).evaluate) :
    (calculation.replaced replacement).visits tracing elsewhere =
      (calculation.visits tracing here).map (.replaced replacement elsewhere) := by
  cases calculation <;> rw [replaced, rebuilt, Replacement.placement_of_none stays]
  case constant value => rfl
  case input source => rfl
  case failing failure => rfl
  case supplied procedure => rfl
  case preceded procedure operand => exact isPure.1.elim
  case not operand => rfl
  case signum operand => rfl
  case equals lhs rhs =>
      have left : (lhs.rebuilt (replacement.placement.part 0)).evaluate.run tracing elsewhere = _ :=
        (parts _ List.mem_cons_self).run_eq
      simp only [visits, left]
      rfl
  case conditional condition ifTrue ifFalse =>
      have selecting : (condition.rebuilt (replacement.placement.part 0)).evaluate.run tracing
          elsewhere = _ := (parts _ List.mem_cons_self).run_eq
      simp only [visits_conditional, selecting, Task.evaluate, List.map_cons,
        Outcome.map_followedBy]
      cases (condition.evaluate.run tracing here).outcome with
      | error failure => rfl
      | ok value => cases value <;> rfl
  case binary operation lhs rhs =>
      have left : (lhs.rebuilt (replacement.placement.part 0)).evaluate.run tracing elsewhere = _ :=
        (parts _ List.mem_cons_self).run_eq
      have right : (rhs.rebuilt (replacement.placement.part 1)).evaluate.run tracing
          elsewhere = _ := (parts _ (List.mem_cons_of_mem _ List.mem_cons_self)).run_eq
      simp only [visits_binary, left, right, List.map_cons, Outcome.map_followedBy]
      rfl
  case reduceLeft reducer initial operands =>
      have readOnly := initial.respects Fragment.readOnly_pure isPure.2.1
      have allReadOnly := operands.respects Fragment.readOnly_pure isPure.2.2
      have starting : (initial.rebuilt (replacement.placement.part 0)).evaluate.run tracing
          elsewhere = _ := (parts _ List.mem_cons_self).run_eq
      simp only [visits_reduceLeft, starting, Task.evaluate]
      cases begun : (initial.evaluate.run tracing here).outcome with
      | error failure => rfl
      | ok start =>
          have operandParts := fun visit visited =>
            parts visit (operandVisits_subset_visits begun visited)
          rw [readOnly.store_eq] at operandParts
          have sameVisits := operandVisits_replaced operands isPure.2.2 1 operandParts
          have collecting :=
            (repeats_outcomes operands isPure.2.2 1 operandParts).all allReadOnly
          have sameSteps := Reducer.visits_replaced tracing isPure.1 replacement here elsewhere
          simp only [Outcome.followedBy_ok, List.map_cons, List.map_append, Outcome.map_followedBy,
            readOnly.store_eq, sameVisits, sameSteps, collecting.run_eq,
            (Evaluation.Respects.all allReadOnly).store_eq, Operands.length_toList_rebuilt]
          rfl

end Calculation

namespace Task

/-- The positions of what is demanded, in order. -/
def positions (tracing : Bool) (task : Task kind) (store : Store) : List (List Nat) :=
  (task.occurrences tracing store).map Occurrence.position

theorem positions_eq (tracing : Bool) (task : Task kind) (store : Store) :
    task.positions tracing store =
      [] :: (task.visits tracing store).flatMap fun visit =>
        (visit.task.positions tracing visit.store).map (visit.index :: ·) := by
  rw [positions, occurrences_eq, List.map_cons, List.map_flatMap]
  simp only [positions, List.map_map]
  rfl

/-- Where only what is not demanded is replaced, a pure task repeats elsewhere what it does here,
and what is demanded stands at the same positions. -/
theorem repeats_replaced {tracing : Bool} {elsewhere : Store} (task : Task kind)
    (here : Store) (replacement : Replacement) (isPure : task.IsIn .pure)
    (admitted : ∀ entry ∈ (task.evaluate.run tracing here).journal, entry.IsTrueOf elsewhere)
    (untouched : ∀ occurrence, Demands tracing task here occurrence →
      replacement occurrence.position = none) :
    task.evaluate.Repeats tracing here elsewhere (task.replaced replacement).evaluate ∧
      (task.replaced replacement).positions tracing elsewhere = task.positions tracing here := by
  induction task, here using visitInduction tracing generalizing replacement with
  | step task here ih =>
      have stays : replacement [] = none := untouched _ .root
      have parts := fun visit visited =>
        ih visit visited (replacement.part visit.index) (isPure.visit visited)
          (isTrueOf_visit admitted visited) fun occurrence demanded =>
            untouched _ (demanded.inside visited)
      have same : task.evaluate.Repeats tracing here elsewhere
            (task.replaced replacement).evaluate ∧
          (task.replaced replacement).visits tracing elsewhere =
            (task.visits tracing here).map (.replaced replacement elsewhere) := by
        cases task with
        | run calculation =>
            have repeating := fun visit visited => (parts visit visited).1
            exact ⟨Calculation.repeats_of_parts isPure admitted stays repeating,
              Calculation.visits_replaced isPure stays repeating⟩
        | apply operation lhs rhs =>
            rcases Operation.run_call_of_isPure (isPure lhs rhs) with ⟨value, called⟩
            exact ⟨.of_steady (called tracing), rfl⟩
        | reduce reducer accumulated next =>
            rcases Reducer.run_call_of_isPure (isPure accumulated next) with ⟨_, _, called⟩
            exact ⟨.of_steady (called tracing), rfl⟩
      refine ⟨same.1, ?_⟩
      have inside : ∀ visit ∈ task.visits tracing here,
          ((visit.replaced replacement elsewhere).task.positions tracing
            (visit.replaced replacement elsewhere).store).map (visit.index :: ·) =
          (visit.task.positions tracing visit.store).map (visit.index :: ·) :=
        fun visit visited => congrArg (List.map (visit.index :: ·)) (parts visit visited).2
      rw [positions_eq, positions_eq, same.2, List.flatMap_map, List.flatMap_def, List.flatMap_def]
      exact congrArg ([] :: List.flatten ·) (List.map_congr_left inside)

end Task

/-- An evaluation depends on nothing but what is demanded in its course. If a store elsewhere holds
the same in all variables that are read, and only such parts are replaced as are not demanded, then
the outcome and the journal with all its events are the same, the store elsewhere stays as it is,
and none of the replacements is demanded. -/
theorem Calculation.replaced_agrees_on_demand (calculation : Calculation kind)
    (isPure : calculation.IsIn .pure) (tracing : Bool) (store elsewhere : Store)
    (agree : ∀ {sourceKind : Kind} (source : Variable sourceKind),
      (calculation.evaluate.run tracing store).Reads source →
        elsewhere.read source = store.read source)
    (replacement : Replacement)
    (untouched : ∀ occurrence, Demands tracing (.run calculation) store occurrence →
      replacement occurrence.position = none) :
    let run := calculation.evaluate.run tracing store
    let other := (calculation.replaced replacement).evaluate.run tracing elsewhere
    other.outcome = run.outcome ∧ other.journal = run.journal ∧ other.store = elsewhere ∧
      ∀ occurrence, Demands tracing (.run (calculation.replaced replacement)) elsewhere occurrence →
        replacement occurrence.position = none := by
  intro run other
  have admitted : ∀ entry ∈ run.journal, entry.IsTrueOf elsewhere := by
    intro entry noted
    have readOnly := calculation.respects Fragment.readOnly_pure isPure
    have isTrue := (readOnly tracing store).2 entry noted
    cases entry with
    | read source value => exact isTrue.trans (agree source ⟨value, noted⟩).symm
    | _ => trivial
  rcases Task.repeats_replaced (.run calculation) store replacement isPure admitted untouched with
    ⟨repeats, samePositions⟩
  have same : other = ⟨run.outcome, elsewhere, run.journal⟩ := repeats.run_eq
  refine ⟨by rw [same], by rw [same], by rw [same], ?_⟩
  intro occurrence demanded
  have listed : occurrence.position ∈ (Task.run calculation).positions tracing store := by
    rw [← samePositions]
    exact List.mem_map_of_mem (Task.mem_occurrences_iff.mpr demanded)
  rcases List.mem_map.mp listed with ⟨own, ownListed, samePosition⟩
  rw [← samePosition]
  exact untouched own (Task.mem_occurrences_iff.mp ownListed)

/-- The branch that is not selected is replaced by one that would set the variable and fail, and the
variable in it holds something else. -/
theorem Calculation.replaced_agrees_on_demand_of_conditional :
    let selected : Variable .int := ⟨0⟩
    let other : Variable .int := ⟨1⟩
    let calculation : Calculation .int :=
      .conditional (.constant true) (.input selected) (.input other)
    let replacement : Replacement
      | [2] => some fun _ _ => .setting selected (7 : Int64) (.failing (.message "not selected"))
      | _ => none
    let store := Store.empty.write selected (5 : Int64)
    let elsewhere := store.write other (9 : Int64)
    let run := (calculation.replaced replacement).evaluate.run true elsewhere
    run.outcome = .ok (5 : Int64) ∧ run.store = elsewhere ∧
      ¬∃ occurrence, Demands true (.run (calculation.replaced replacement)) elsewhere occurrence ∧
        occurrence.position = [2] := by
  intro selected other calculation replacement store elsewhere run
  have agree : ∀ {sourceKind : Kind} (source : Variable sourceKind),
      (calculation.evaluate.run true store).Reads source →
        elsewhere.read source = store.read source := by
    rintro sourceKind source ⟨value, noted⟩
    have only : Entry.read source value = .read selected (5 : Int64) := List.mem_singleton.mp noted
    cases only
    exact Store.read_write_of_ne _ _ (by decide)
  have untouched : ∀ occurrence, Demands true (.run calculation) store occurrence →
      replacement occurrence.position = none := by
    intro occurrence demanded
    have parts : (Task.run calculation).visits true store =
        [⟨0, 0, .run (.constant true : Calculation .bool), store⟩,
          ⟨1, 0, .run (.input selected), store⟩] := rfl
    have positions : (Task.run calculation).positions true store = [[], [0], [1]] := by
      rw [Task.positions_eq, parts, List.flatMap_cons, List.flatMap_cons, List.flatMap_nil,
        Task.positions_eq, Task.positions_eq]
      rfl
    have listed : occurrence.position ∈ (Task.run calculation).positions true store :=
      List.mem_map_of_mem (Task.mem_occurrences_iff.mpr demanded)
    simp only [positions, List.mem_cons, List.not_mem_nil, or_false] at listed
    rcases listed with same | same | same <;> simp [same, replacement]
  rcases calculation.replaced_agrees_on_demand ⟨trivial, trivial, trivial⟩ true store elsewhere
    agree replacement untouched with ⟨sameOutcome, _, sameStore, spared⟩
  refine ⟨sameOutcome, sameStore, ?_⟩
  rintro ⟨occurrence, demanded, atBranch⟩
  have nothing := spared occurrence demanded
  rw [atBranch] at nothing
  cases nothing

end Deferred
