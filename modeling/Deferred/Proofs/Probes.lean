import Deferred.Proofs.Ledger
import Deferred.Proofs.Rebuilding

/-!
# Probes see what is demanded

A probe announces its label and then runs the calculation behind it. `Calculation.probed` puts
probes into a graph, one for each position that has a label, so that a calculation that occurs in
several places gets a probe of its own in each of them. A position without a label gets none, such
as the one of the fixed initial value of a sum.

Probes change neither the outcome nor the store, and what they announce is what is demanded, in
pre-order. Calls of functions leave entries as well, and these stand where the calls are demanded.
-/

namespace Deferred

variable {kind : Kind} {α β : Type}

/-- The labels of the probes that are put into a graph, by position. -/
abbrev Labelling := List Nat → Option String

namespace Labelling

/-- The labels in one of the parts. -/
def part (labelling : Labelling) (index : Nat) : Labelling :=
  fun position => labelling (index :: position)

/-- All labels are marked as labels of probes. -/
def IsMarked (labelling : Labelling) (probe : String → Bool) : Prop :=
  ∀ position label, labelling position = some label → probe label = true

theorem IsMarked.part {labelling : Labelling} {probe : String → Bool}
    (marked : labelling.IsMarked probe) (index : Nat) : (labelling.part index).IsMarked probe :=
  fun position => marked (index :: position)

end Labelling

/-- Puts a probe in front of a calculation, if there is a label for it. -/
def Calculation.tagged (tag : Option String) (calculation : Calculation kind) : Calculation kind :=
  tag.elim calculation fun label => labelled label calculation

/-- Puts a probe in front of what stands at a position, if there is a label for the position. -/
def Labelling.placement (labelling : Labelling) : Placement :=
  fun position _ _ rebuilt => rebuilt.tagged (labelling position)

/-- Puts probes into a graph. -/
def Calculation.probed (labelling : Labelling) (calculation : Calculation kind) :
    Calculation kind :=
  calculation.rebuilt labelling.placement

namespace Entry

/-- Whether an entry is the announcement of a probe or the call of a function. -/
def isWatched (probe : String → Bool) : Entry → Bool
  | .evaluated label => probe label
  | .applied _ _ _ => true
  | .reduced _ _ _ => true
  | _ => false

/-- The label that is announced. -/
def label? : Entry → Option String
  | .evaluated label => some label
  | _ => none

end Entry

@[simp]
theorem Event.filter_isWatched_entries (probe : String → Bool) (tracing : Bool) (event : Event) :
    (event.entries tracing).filter (Entry.isWatched probe) = [] := by
  cases tracing <;> rfl

@[simp]
theorem Event.filter_isWatched_ofOutcome (probe : String → Bool) (tracing : Bool)
    (event : Failure → Event) (outcome : Outcome α) :
    (Event.ofOutcome tracing event outcome).filter (Entry.isWatched probe) = [] := by
  cases outcome <;> simp

@[simp]
theorem Event.filter_isWatched_ofFailures (probe : String → Bool) (tracing : Bool)
    (failures : List Failure) :
    (Event.ofFailures tracing failures).filter (Entry.isWatched probe) = [] := by
  by_cases nonempty : failures = []
  · simp [nonempty]
  · simp [Event.ofFailures_of_ne_nil tracing nonempty]

/-! ## What is seen of a task -/

/-- What is seen of an occurrence: the announcement of its probe, or its call. -/
def Occurrence.seen? (labelling : Labelling) (occurrence : Occurrence) : Option Entry :=
  match occurrence.task with
  | .run _ => (labelling occurrence.position).map .evaluated
  | .apply operation lhs rhs => some (.applied operation.name (.ofValue lhs) (.ofValue rhs))
  | .reduce reducer accumulated next =>
    some (.reduced reducer.name (.ofValue accumulated) (.ofValue next))

namespace Task

/-- What is seen when a task is done. -/
def entries (labelling : Labelling) (tracing : Bool) (task : Task kind) (store : Store) :
    List Entry :=
  (task.occurrences tracing store).filterMap (Occurrence.seen? labelling)

/-- What is seen of parts that are taken up. -/
def entriesIn (labelling : Labelling) (tracing : Bool) (visits : List Visit) : List Entry :=
  visits.flatMap fun visit =>
    visit.task.entries (labelling.part visit.index) tracing visit.store

theorem entries_eq (labelling : Labelling) (tracing : Bool) (task : Task kind) (store : Store) :
    task.entries labelling tracing store =
      (Occurrence.seen? labelling ⟨[], 0, task, store⟩).toList ++
        entriesIn labelling tracing (task.visits tracing store) := by
  have below (visit : Visit) (occurrence : Occurrence) :
      (occurrence.inside visit).seen? labelling =
        occurrence.seen? (labelling.part visit.index) := by
    cases occurrence with
    | mk position depth task store => cases task <;> rfl
  rw [entries, filterMap_occurrences, entriesIn]
  simp only [below, entries]

theorem entries_run (labelling : Labelling) (tracing : Bool) (calculation : Calculation kind)
    (store : Store) :
    (run calculation).entries labelling tracing store =
      ((labelling []).map Entry.evaluated).toList ++
        entriesIn labelling tracing (calculation.visits tracing store) :=
  entries_eq ..

theorem entries_apply (labelling : Labelling) (tracing : Bool) (operation : Operation kind)
    (lhs rhs : kind.Value) (store : Store) :
    (apply operation lhs rhs).entries labelling tracing store =
      [.applied operation.name (.ofValue lhs) (.ofValue rhs)] :=
  entries_eq ..

theorem entries_reduce (labelling : Labelling) (tracing : Bool) (reducer : Reducer kind)
    (accumulated next : kind.Value) (store : Store) :
    (reduce reducer accumulated next).entries labelling tracing store =
      [.reduced reducer.name (.ofValue accumulated) (.ofValue next)] :=
  entries_eq ..

end Task

/-! ## What is seen of a run -/

/-- No label in a journal is marked as the label of a probe. -/
def Unmarked (probe : String → Bool) (journal : List Entry) : Prop :=
  ∀ label, Entry.evaluated label ∈ journal → probe label = false

@[simp]
theorem unmarked_append {probe : String → Bool} {first second : List Entry} :
    Unmarked probe (first ++ second) ↔ Unmarked probe first ∧ Unmarked probe second := by
  constructor
  · intro unmarked
    exact ⟨fun label member => unmarked label (List.mem_append_left _ member),
      fun label member => unmarked label (List.mem_append_right _ member)⟩
  · rintro ⟨unmarkedFirst, unmarkedSecond⟩ label member
    rcases List.mem_append.mp member with member | member
    · exact unmarkedFirst label member
    · exact unmarkedSecond label member

/-- A run with probes comes to the same as a run without them, and shows the given entries if no
label of the graph itself is mistaken for one of a probe. -/
structure Run.Shows (probe : String → Bool) (probed own : Run α) (entries : List Entry) : Prop where
  outcome_eq : probed.outcome = own.outcome
  store_eq : probed.store = own.store
  watched : Unmarked probe own.journal → probed.journal.filter (Entry.isWatched probe) = entries

theorem Run.Shows.refl {probe : String → Bool} {run : Run α} {entries : List Entry}
    (watched : Unmarked probe run.journal →
      run.journal.filter (Entry.isWatched probe) = entries) :
    run.Shows probe run entries :=
  ⟨rfl, rfl, watched⟩

namespace Evaluation

variable {probe : String → Bool} {tracing : Bool} {store : Store}

theorem shows_map (function : α → β) {probed own : Evaluation α} {entries : List Entry}
    (shows : (probed.run tracing store).Shows probe (own.run tracing store) entries) :
    ((function <$> probed).run tracing store).Shows probe ((function <$> own).run tracing store)
      entries :=
  ⟨congrArg (Except.map function) shows.outcome_eq, shows.store_eq, shows.watched⟩

theorem shows_attempt {probed own : Evaluation α} {entries : List Entry}
    (shows : (probed.run tracing store).Shows probe (own.run tracing store) entries) :
    (probed.attempt.run tracing store).Shows probe (own.attempt.run tracing store) entries :=
  ⟨congrArg Except.ok shows.outcome_eq, shows.store_eq, shows.watched⟩

theorem shows_reportingFailure (event : Failure → Event) {probed own : Evaluation α}
    {entries : List Entry}
    (shows : (probed.run tracing store).Shows probe (own.run tracing store) entries) :
    ((probed.reportingFailure event).run tracing store).Shows probe
      ((own.reportingFailure event).run tracing store) entries := by
  simp only [run_reportingFailure_eq]
  refine ⟨shows.outcome_eq, shows.store_eq, ?_⟩
  intro unmarked
  rw [unmarked_append] at unmarked
  simp [shows.watched unmarked.1]

theorem shows_bind {probedFirst first : Evaluation α} {probedRest rest : α → Evaluation β}
    {before : List Entry} {after : α → List Entry}
    (begun : (probedFirst.run tracing store).Shows probe (first.run tracing store) before)
    (goesOn : ∀ value, (first.run tracing store).outcome = .ok value →
      ((probedRest value).run tracing (first.run tracing store).store).Shows probe
        ((rest value).run tracing (first.run tracing store).store) (after value)) :
    ((probedFirst >>= probedRest).run tracing store).Shows probe
      ((first >>= rest).run tracing store)
      (before ++ (first.run tracing store).outcome.followedBy after) := by
  cases ran : (first.run tracing store).outcome with
  | ok value =>
      rw [run_bind_of_ok tracing store rest ran,
        run_bind_of_ok tracing store probedRest (begun.outcome_eq.trans ran), begun.store_eq]
      have ended := goesOn value ran
      refine ⟨ended.outcome_eq, ended.store_eq, ?_⟩
      intro unmarked
      rw [unmarked_append] at unmarked
      rw [List.filter_append, begun.watched unmarked.1, ended.watched unmarked.2]
      rfl
  | error failure =>
      rw [run_bind_of_error tracing store rest ran,
        run_bind_of_error tracing store probedRest (begun.outcome_eq.trans ran),
        Outcome.followedBy_error, List.append_nil]
      exact ⟨rfl, begun.store_eq, begun.watched⟩

/-- What follows shows nothing. -/
theorem shows_bind_nil {probedFirst first : Evaluation α} {probedRest rest : α → Evaluation β}
    {entries : List Entry}
    (begun : (probedFirst.run tracing store).Shows probe (first.run tracing store) entries)
    (goesOn : ∀ value, (first.run tracing store).outcome = .ok value →
      ((probedRest value).run tracing (first.run tracing store).store).Shows probe
        ((rest value).run tracing (first.run tracing store).store) []) :
    ((probedFirst >>= probedRest).run tracing store).Shows probe
      ((first >>= rest).run tracing store) entries := by
  have whole := shows_bind begun goesOn
  rwa [Outcome.followedBy_nil, List.append_nil] at whole

theorem shows_both {probedLhs lhs : Evaluation α} {probedRhs rhs : Evaluation β}
    {left right : List Entry}
    (leftShows : (probedLhs.run tracing store).Shows probe (lhs.run tracing store) left)
    (rightShows : (probedRhs.run tracing (lhs.run tracing store).store).Shows probe
      (rhs.run tracing (lhs.run tracing store).store) right) :
    ((both probedLhs probedRhs).run tracing store).Shows probe ((both lhs rhs).run tracing store)
      (left ++ right) := by
  simp only [run_both, leftShows.store_eq, leftShows.outcome_eq, rightShows.outcome_eq]
  refine ⟨rfl, rightShows.store_eq, ?_⟩
  intro unmarked
  simp only [unmarked_append] at unmarked
  simp [leftShows.watched unmarked.1.1, rightShows.watched unmarked.1.2]

theorem shows_all {probed own : List (Evaluation α)} {entries : List Entry}
    (shows : ((outcomes probed).run tracing store).Shows probe ((outcomes own).run tracing store)
      entries) :
    ((all probed).run tracing store).Shows probe ((all own).run tracing store) entries := by
  apply shows_bind_nil shows
  intro collected _
  apply Run.Shows.refl
  intro _
  by_cases nonempty : Outcome.failures collected = []
  · simp [nonempty]
  · simp [run_check, Outcome.gathered_of_ne_nil _ nonempty]

theorem shows_conditional {probedCondition condition : Evaluation Bool}
    {probedTrue probedFalse ifTrue ifFalse : Evaluation α} {before : List Entry}
    {after : Bool → List Entry}
    (selecting : (probedCondition.run tracing store).Shows probe (condition.run tracing store)
      before)
    (selected : ∀ value, (condition.run tracing store).outcome = .ok value →
      ((if value then probedTrue else probedFalse).run tracing
        (condition.run tracing store).store).Shows probe
          ((if value then ifTrue else ifFalse).run tracing (condition.run tracing store).store)
          (after value)) :
    ((probedCondition.conditional probedTrue probedFalse).run tracing store).Shows probe
      ((condition.conditional ifTrue ifFalse).run tracing store)
      (before ++ (condition.run tracing store).outcome.followedBy after) := by
  rw [← outcome_reportingFailure tracing store condition fun _ => .conditionFailed]
  apply shows_bind (shows_reportingFailure _ selecting)
  intro value succeeds
  rw [outcome_reportingFailure] at succeeds
  rw [store_reportingFailure]
  exact selected value succeeds

theorem shows_binary {function : α → α → Evaluation α}
    {probedLhs probedRhs lhs rhs : Evaluation α} {left right : List Entry}
    {called : α × α → List Entry}
    (leftShows : (probedLhs.run tracing store).Shows probe (lhs.run tracing store) left)
    (rightShows : (probedRhs.run tracing (lhs.run tracing store).store).Shows probe
      (rhs.run tracing (lhs.run tracing store).store) right)
    (calls : ∀ values store, ((function values.1 values.2).run tracing store).Shows probe
      ((function values.1 values.2).run tracing store) (called values)) :
    ((binary function probedLhs probedRhs).run tracing store).Shows probe
      ((binary function lhs rhs).run tracing store)
      (left ++ right ++
        (Outcome.both (lhs.run tracing store).outcome
          (rhs.run tracing (lhs.run tracing store).store).outcome).followedBy called) := by
  have whole := shows_bind (shows_both leftShows rightShows) fun values _ => calls values _
  rwa [run_both] at whole

/-- What is seen of the three phases of a fold. -/
theorem shows_reduceLeft {reduce : α → α → Evaluation α} {probedInitial initial : Evaluation α}
    {probed own : List (Evaluation α)} {before during : List Entry}
    {steps : α → List α → List Entry} (sameLength : probed.length = own.length)
    (starting : (probedInitial.run tracing store).Shows probe (initial.run tracing store) before)
    (collecting : ∀ start, (initial.run tracing store).outcome = .ok start →
      ((all probed).run tracing (initial.run tracing store).store).Shows probe
        ((all own).run tracing (initial.run tracing store).store) during)
    (reducing : ∀ start values,
      ((reduceFrom reduce 0 start values).run tracing
        ((all own).run tracing (initial.run tracing store).store).store).Shows probe
          ((reduceFrom reduce 0 start values).run tracing
            ((all own).run tracing (initial.run tracing store).store).store)
          (steps start values)) :
    ((reduceLeft reduce probedInitial probed).run tracing store).Shows probe
      ((reduceLeft reduce initial own).run tracing store)
      (before ++ (initial.run tracing store).outcome.followedBy fun start =>
        during ++ ((all own).run tracing (initial.run tracing store).store).outcome.followedBy
          (steps start)) := by
  rw [reduceLeft, reduceLeft, sameLength,
    ← outcome_reportingFailure tracing store initial fun _ => .initialFailed own.length]
  apply shows_bind (shows_reportingFailure _ starting)
  intro start begun
  rw [outcome_reportingFailure] at begun
  rw [store_reportingFailure]
  exact shows_bind (collecting start begun) fun values _ => reducing start values

end Evaluation

variable {probe : String → Bool} {tracing : Bool}

theorem Procedure.shows_perform (procedure : Procedure α) (store : Store) :
    (procedure.perform.run tracing store).Shows probe (procedure.perform.run tracing store) [] := by
  apply Run.Shows.refl
  induction procedure generalizing store with
  | finish result => simp
  | announce label rest ih =>
      intro unmarked
      rw [perform_announce] at unmarked ⊢
      have own : Unmarked probe (.evaluated label :: (rest.perform.run tracing store).journal) := by
        simpa [Evaluation.run_bind] using unmarked
      have silent : probe label = false := own label List.mem_cons_self
      have others := ih store fun other member => own other (List.mem_cons_of_mem _ member)
      simpa [Evaluation.run_bind, Entry.isWatched, silent] using others
  | read source rest ih =>
      intro unmarked
      have others := ih (store.read source) store fun label member =>
        unmarked label (by simpa [perform_read, Evaluation.run_bind] using member)
      simpa [perform_read, Evaluation.run_bind, Entry.isWatched] using others
  | write target value rest ih =>
      intro unmarked
      have others := ih (store.write target value) fun label member =>
        unmarked label (by simp [perform_write, Evaluation.run_bind, member])
      simpa [perform_write, Evaluation.run_bind, Entry.isWatched] using others
  | fetch slot rest ih =>
      intro unmarked
      have others := ih (store.count slot) store fun label member =>
        unmarked label (by simpa [perform_fetch, Evaluation.run_bind] using member)
      simpa [perform_fetch, Evaluation.run_bind] using others
  | keep slot count rest ih =>
      intro unmarked
      have others := ih (store.setCount slot count) fun label member =>
        unmarked label (by simpa [perform_keep, Evaluation.run_bind] using member)
      simpa [perform_keep, Evaluation.run_bind] using others

theorem Procedure.shows_settle (procedure : Procedure (Outcome α)) (origin : Origin)
    (store : Store) :
    ((procedure.perform >>= Evaluation.settle origin).run tracing store).Shows probe
      ((procedure.perform >>= Evaluation.settle origin).run tracing store) [] := by
  apply Evaluation.shows_bind_nil (procedure.shows_perform store)
  intro outcome _
  apply Run.Shows.refl
  intro _
  cases outcome <;> rfl

theorem Operation.shows_call (operation : Operation kind) (lhs rhs : kind.Value) (store : Store) :
    ((operation.call lhs rhs).run tracing store).Shows probe
      ((operation.call lhs rhs).run tracing store)
      [.applied operation.name (.ofValue lhs) (.ofValue rhs)] := by
  apply Evaluation.shows_bind_nil
  · exact Run.Shows.refl fun _ => rfl
  · intro _ _
    exact (operation.body lhs rhs).shows_perform store

theorem Reducer.shows_call (reducer : Reducer kind) (accumulated next : kind.Value)
    (store : Store) :
    ((reducer.call accumulated next).run tracing store).Shows probe
      ((reducer.call accumulated next).run tracing store)
      [.reduced reducer.name (.ofValue accumulated) (.ofValue next)] := by
  apply Evaluation.shows_bind_nil
  · exact Run.Shows.refl fun _ => rfl
  · intro _ _
    exact (reducer.body accumulated next).shows_settle .reducer store

/-- The calls of a reducing function are seen, up to the first one that fails. -/
theorem Reducer.shows_reduceFrom (reducer : Reducer kind) (labelling : Labelling)
    (index step : Nat) (accumulated : kind.Value) (values : List kind.Value) (store : Store) :
    ((Evaluation.reduceFrom reducer.call step accumulated values).run tracing store).Shows probe
      ((Evaluation.reduceFrom reducer.call step accumulated values).run tracing store)
      (Task.entriesIn labelling tracing
        (reducer.visits tracing index store accumulated values)) := by
  induction values generalizing index step accumulated store with
  | nil => exact Run.Shows.refl fun _ => rfl
  | cons next rest ih =>
      simp only [Evaluation.reduceFrom_cons, visits_cons, Task.entriesIn, List.flatMap_cons,
        Outcome.flatMap_followedBy, Task.entries_reduce]
      rw [← Evaluation.outcome_reportingFailure tracing store _ fun failure =>
        .stepFailed step failure]
      apply Evaluation.shows_bind
      · exact Evaluation.shows_reportingFailure _ (reducer.shows_call accumulated next store)
      · intro reduced _
        rw [Evaluation.store_reportingFailure]
        exact ih (index + 1) (step + 1) reduced _

namespace Calculation

/-- A probe shows its label, and then what the calculation behind it shows. -/
theorem shows_tagged {tag : Option String} (marked : ∀ label, tag = some label → probe label = true)
    {probed own : Calculation kind} {store : Store} {entries : List Entry}
    (shows : (probed.evaluate.run tracing store).Shows probe (own.evaluate.run tracing store)
      entries) :
    ((probed.tagged tag).evaluate.run tracing store).Shows probe
      (own.evaluate.run tracing store) ((tag.map Entry.evaluated).toList ++ entries) := by
  cases tag with
  | none => simpa [tagged] using shows
  | some label =>
      have announced : (probed.tagged (some label)).evaluate.run tracing store =
          ⟨(probed.evaluate.run tracing store).outcome, (probed.evaluate.run tracing store).store,
            .evaluated label :: (probed.evaluate.run tracing store).journal⟩ := by
        simp [tagged, labelled, evaluate_preceded, Procedure.perform_announce,
          Evaluation.run_bind]
      rw [announced]
      refine ⟨shows.outcome_eq, shows.store_eq, ?_⟩
      intro unmarked
      have seen : Entry.isWatched probe (.evaluated label) = true := marked label rfl
      rw [List.filter_cons_of_pos seen, shows.watched unmarked]
      rfl

/-- What is seen of operands is what is seen of each of them, one after the other. -/
theorem shows_outcomes (labelling : Labelling) :
    (operands : Operands kind) → (index : Nat) → (store : Store) →
    (∀ visit ∈ operandVisits tracing index store operands.toList, ∀ operand,
      visit.task = .run operand →
      ((operand.probed (labelling.part visit.index)).evaluate.run tracing visit.store).Shows probe
        (operand.evaluate.run tracing visit.store)
        ((Task.run operand).entries (labelling.part visit.index) tracing visit.store)) →
    ((Evaluation.outcomes
        ((operands.rebuilt labelling.placement index).toList.map evaluate)).run tracing store).Shows
      probe ((Evaluation.outcomes (operands.toList.map evaluate)).run tracing store)
      (Task.entriesIn labelling tracing (operandVisits tracing index store operands.toList))
  | .nil, index, store, each => Run.Shows.refl fun _ => rfl
  | .cons operand operands, index, store, each => by
      simp only [Operands.toList, operandVisits, List.mem_cons, forall_eq_or_imp] at each
      rcases each with ⟨first, others⟩
      have rest := shows_outcomes labelling operands (index + 1)
        (operand.evaluate.run tracing store).store others
      exact Evaluation.shows_bind (Evaluation.shows_attempt (first operand rfl)) fun outcome _ =>
        Evaluation.shows_map (outcome :: ·) rest

/-- With probes in its parts that show what is demanded, a calculation itself does so. -/
theorem shows_of_parts {labelling : Labelling} (marked : labelling.IsMarked probe)
    (calculation : Calculation kind) (store : Store)
    (parts : ∀ visit ∈ calculation.visits tracing store, ∀ part, visit.task = .run part →
      ((part.probed (labelling.part visit.index)).evaluate.run tracing visit.store).Shows probe
        (part.evaluate.run tracing visit.store)
        ((Task.run part).entries (labelling.part visit.index) tracing visit.store)) :
    ((calculation.probed labelling).evaluate.run tracing store).Shows probe
      (calculation.evaluate.run tracing store)
      ((Task.run calculation).entries labelling tracing store) := by
  rw [Task.entries_run]
  cases calculation with
  | constant value => exact shows_tagged (marked []) (Run.Shows.refl fun _ => rfl)
  | input source => exact shows_tagged (marked []) (Run.Shows.refl fun _ => rfl)
  | failing failure => exact shows_tagged (marked []) (Run.Shows.refl fun _ => rfl)
  | supplied procedure =>
      exact shows_tagged (marked []) (procedure.shows_settle .supplied store)
  | preceded procedure operand =>
      have rest := parts _ (List.mem_singleton.mpr rfl) operand rfl
      rcases procedure.perform_spec tracing store with ⟨_, finished, _⟩
      have whole := Evaluation.shows_bind (procedure.shows_perform store) fun _ _ => rest
      rw [finished, Outcome.followedBy_ok] at whole
      apply shows_tagged (marked [])
      rw [visits, Task.entriesIn, List.flatMap_singleton]
      exact whole
  | not operand =>
      have inner := parts _ (List.mem_singleton.mpr rfl) operand rfl
      apply shows_tagged (marked [])
      rw [visits, Task.entriesIn, List.flatMap_singleton]
      exact Evaluation.shows_map _ (Evaluation.shows_reportingFailure _ inner)
  | signum operand =>
      have inner := parts _ (List.mem_singleton.mpr rfl) operand rfl
      apply shows_tagged (marked [])
      rw [visits, Task.entriesIn, List.flatMap_singleton]
      exact Evaluation.shows_map _ (Evaluation.shows_reportingFailure _ inner)
  | equals lhs rhs =>
      have left := parts _ List.mem_cons_self lhs rfl
      have right := parts _ (List.mem_cons_of_mem _ List.mem_cons_self) rhs rfl
      apply shows_tagged (marked [])
      rw [visits, Task.entriesIn, List.flatMap_cons, List.flatMap_singleton]
      exact Evaluation.shows_map _ (Evaluation.shows_both left right)
  | conditional condition ifTrue ifFalse =>
      have selecting := parts _ List.mem_cons_self condition rfl
      apply shows_tagged (marked [])
      rw [evaluate_conditional, evaluate_conditional]
      simp only [visits_conditional, Task.entriesIn, List.flatMap_cons, Outcome.flatMap_followedBy,
        List.flatMap_nil, List.append_nil]
      apply Evaluation.shows_conditional selecting
      intro value selected
      have branch := parts _ (branch_mem_visits selected) _ rfl
      cases value <;> exact branch
  | binary operation lhs rhs =>
      have left := parts _ List.mem_cons_self lhs rfl
      have right := parts _ (List.mem_cons_of_mem _ List.mem_cons_self) rhs rfl
      apply shows_tagged (marked [])
      rw [evaluate_binary, evaluate_binary]
      simp only [visits_binary, Task.entriesIn, List.flatMap_cons, Outcome.flatMap_followedBy,
        List.flatMap_nil, List.append_nil, Task.entries_apply]
      rw [← List.append_assoc]
      exact Evaluation.shows_binary left right fun values => operation.shows_call values.1 values.2
  | reduceLeft reducer initial operands =>
      have starting := parts _ List.mem_cons_self initial rfl
      apply shows_tagged (marked [])
      rw [evaluate_reduceLeft, evaluate_reduceLeft]
      simp only [visits_reduceLeft, Task.entriesIn, List.flatMap_cons, List.flatMap_append,
        Outcome.flatMap_followedBy]
      apply Evaluation.shows_reduceLeft (by simp) starting
      · intro start begun
        exact Evaluation.shows_all <| shows_outcomes labelling operands 1 _ fun visit visited =>
          parts visit (operandVisits_subset_visits begun visited)
      · intro start values
        exact reducer.shows_reduceFrom labelling _ 0 start values _

/-- With probes a calculation comes to the same outcome and store, and the probes and functions
show what is demanded. -/
theorem shows_probed (calculation : Calculation kind) {labelling : Labelling}
    (marked : labelling.IsMarked probe) (tracing : Bool) (store : Store) :
    ((calculation.probed labelling).evaluate.run tracing store).Shows probe
      (calculation.evaluate.run tracing store)
      ((Task.run calculation).entries labelling tracing store) := by
  induction calculation, store using visitInduction tracing generalizing labelling with
  | step calculation store ih =>
      apply shows_of_parts marked calculation store
      intro visit visited part same
      exact ih visit visited part same (marked.part visit.index)

end Calculation

/-- The labels of the probes are the announcements that are seen. -/
theorem Entry.filter_filterMap_label? (probe : String → Bool) (journal : List Entry) :
    (journal.filterMap label?).filter probe =
      (journal.filter (isWatched probe)).filterMap label? := by
  induction journal with
  | nil => rfl
  | cons entry journal ih =>
      cases entry with
      | evaluated label =>
          cases seen : probe label <;> simp [label?, isWatched, seen, ih]
      | applied name lhs rhs => exact ih
      | reduced name accumulated next => exact ih
      | event event => exact ih
      | raised origin failure => exact ih
      | created source value => exact ih
      | read source value => exact ih
      | wrote target value => exact ih

theorem Occurrence.labelling_of_label?_seen? {labelling : Labelling} {occurrence : Occurrence}
    {label : String} (announced : (occurrence.seen? labelling).bind Entry.label? = some label) :
    labelling occurrence.position = some label := by
  rcases occurrence with ⟨position, depth, task, store⟩
  cases task with
  | run calculation =>
      cases tag : labelling position <;> simp [seen?, tag, Entry.label?] at announced ⊢
      exact announced
  | apply operation lhs rhs => simp [seen?, Entry.label?] at announced
  | reduce reducer accumulated next => simp [seen?, Entry.label?] at announced

/-- Probes with distinct labels change neither the outcome nor the store. Each of them announces its
label at most once, and the labels and the calls of functions stand in the journal as what is
demanded stands in the graph: in pre-order, from left to right, and nothing else. -/
theorem Calculation.probes_follow_demand (calculation : Calculation kind) (labelling : Labelling)
    (probe : String → Bool) (tracing : Bool) (store : Store)
    (distinct : ∀ first second label,
      labelling first = some label → labelling second = some label → first = second)
    (marked : labelling.IsMarked probe)
    (unmarked : Unmarked probe (calculation.evaluate.run tracing store).journal) :
    let run := calculation.evaluate.run tracing store
    let probed := (calculation.probed labelling).evaluate.run tracing store
    probed.outcome = run.outcome ∧ probed.store = run.store ∧
      ((probed.journal.filterMap Entry.label?).filter probe).Nodup ∧
      ∃ demanded : List Occurrence,
        demanded.Pairwise (·.position < ·.position) ∧
        (∀ occurrence, occurrence ∈ demanded ↔
          Demands tracing (.run calculation) store occurrence) ∧
        probed.journal.filter (Entry.isWatched probe) =
          demanded.filterMap (Occurrence.seen? labelling) := by
  intro run probed
  have shows := calculation.shows_probed marked tracing store
  have seen := shows.watched unmarked
  have sorted := Task.pairwise_position_occurrences tracing (.run calculation) store
  refine ⟨shows.outcome_eq, shows.store_eq, ?_, _, sorted, ?_, seen⟩
  · rw [Entry.filter_filterMap_label?, seen, Task.entries, List.filterMap_filterMap]
    apply sorted.filterMap
    intro first second before label firstLabel other secondLabel same
    subst same
    have samePosition := distinct _ _ label
      (Occurrence.labelling_of_label?_seen? firstLabel)
      (Occurrence.labelling_of_label?_seen? secondLabel)
    rw [samePosition] at before
    exact List.lt_irrefl _ before
  · intro occurrence
    exact Task.mem_occurrences_iff

/-- The condition holds, and the branch that is not selected announces nothing. -/
theorem Calculation.probes_follow_demand_of_conditional :
    let calculation : Calculation .int :=
      .conditional (.constant true) (.constant (1 : Int64)) (.failing (.message "not selected"))
    let labelling : Labelling
      | [] => some "root"
      | [0] => some "condition"
      | [1] => some "selected"
      | [2] => some "other"
      | _ => none
    let probe := fun label => ["root", "condition", "selected", "other"].contains label
    let labels := (((calculation.probed labelling).evaluate.run true .empty).journal.filterMap
      Entry.label?).filter probe
    labels = ["root", "condition", "selected"] ∧ labels.Nodup := by
  intro calculation labelling probe labels
  have distinct : ∀ first second label,
      labelling first = some label → labelling second = some label → first = second := by
    intro first second label firstLabel secondLabel
    simp only [labelling] at firstLabel secondLabel
    split at firstLabel <;> split at secondLabel <;> cases firstLabel <;> simp at secondLabel ⊢
  have marked : labelling.IsMarked probe := by
    intro position label tag
    simp only [labelling] at tag
    split at tag <;> simp_all [probe]
  have unmarked : Unmarked probe (calculation.evaluate.run true .empty).journal := by
    intro label member
    cases member
  rcases calculation.probes_follow_demand labelling probe true .empty distinct marked unmarked with
    ⟨_, _, once, _⟩
  exact ⟨rfl, once⟩

end Deferred
