import Deferred.Proofs.Cells
import Deferred.Proofs.Relevance

/-!
# Evaluating again

Graphs can be evaluated as often as one likes, in any order, and variables can be set in between. An
evaluation of a pure graph changes no variable, whether it succeeds or fails, and keeps nothing for
the next one. So it gives what the graph gives on its own in a store that differs from the first one
in the variables that were set in the meantime, and in nothing else. If none were set, it gives what
it would have given in the first place.

`Store.IsAfter` says what a store holds after a history of evaluations and settings. Evaluations do
not occur in this description at all; that they leave it true is the step of the induction.
-/

namespace Deferred

variable {kind : Kind}

/-- A graph of either kind. -/
structure Graph where
  {kind : Kind}
  calculation : Calculation kind

/-- What happens when a graph is evaluated. The value is packed with its kind. -/
def Graph.evaluate (graph : Graph) : Evaluation Scalar :=
  Scalar.ofValue <$> graph.calculation.evaluate

/-- What is done with graphs and variables. -/
inductive Use where
  | evaluate (graph : Graph)
  | set {kind : Kind} (target : Variable kind) (value : kind.Value)

namespace Use

/-- Evaluates a graph, or sets a variable and gives the value that it now holds. -/
def perform : Use → Evaluation Scalar
  | .evaluate graph => graph.evaluate
  | .set target value => (fun _ => .ofValue value) <$> .write target value

/-- What a variable is set to. -/
def setting? (cell : Cell) : Use → Option Scalar
  | .evaluate _ => none
  | .set target value => if target.cell = cell then some (.ofValue value) else none

/-- What a variable was set to last. -/
def lastSetting? (cell : Cell) (history : List Use) : Option Scalar :=
  history.reverse.findSome? (setting? cell)

theorem lastSetting?_append (cell : Cell) (first second : List Use) :
    lastSetting? cell (first ++ second) =
      (lastSetting? cell second).or (lastSetting? cell first) := by
  simp [lastSetting?]

theorem lastSetting?_singleton (cell : Cell) (use : Use) :
    lastSetting? cell [use] = use.setting? cell := by
  simp [lastSetting?]

end Use

theorem Scalar.ofValue_injective : Function.Injective (@Scalar.ofValue kind) := by
  intro first second same
  have unpacked := congrArg (Scalar.value? kind) same
  simpa using unpacked

namespace Store

theorem ofValue_read_write (store : Store) {other : Kind} (target : Variable kind)
    (value : kind.Value) (source : Variable other) :
    Scalar.ofValue ((store.write target value).read source) =
      if target.cell = source.cell then .ofValue value else .ofValue (store.read source) := by
  by_cases same : kind = other
  · subst same
    by_cases here : source = target
    · rw [here, read_write_self, if_pos rfl]
    · have apart : target.cell ≠ source.cell := by
        rcases source with ⟨index⟩
        rcases target with ⟨other⟩
        simpa [Variable.cell, eq_comm] using here
      rw [read_write_of_ne _ _ here, if_neg apart]
  · have apart : target.cell ≠ source.cell := fun shared => same (congrArg Cell.kind shared)
    rw [read_write_of_kind_ne _ _ _ _ (Ne.symm same), if_neg apart]

/-- Every variable holds what it was set to last in the course of a history, or otherwise what it
held in the beginning. -/
def IsAfter (store : Store) (history : List Use) (later : Store) : Prop :=
  ∀ (kind : Kind) (source : Variable kind),
    Scalar.ofValue (later.read source) =
      (Use.lastSetting? source.cell history).getD (.ofValue (store.read source))

namespace IsAfter

variable {store middle later other : Store} {first second history : List Use}

theorem refl (store : Store) : store.IsAfter [] store :=
  fun _ _ => rfl

theorem trans (before : store.IsAfter first middle) (rest : middle.IsAfter second later) :
    store.IsAfter (first ++ second) later := by
  intro kind source
  rw [rest kind source, before kind source, Use.lastSetting?_append]
  cases Use.lastSetting? source.cell second <;> rfl

theorem read_eq (one : store.IsAfter history later) (another : store.IsAfter history other)
    (source : Variable kind) : other.read source = later.read source := by
  apply Scalar.ofValue_injective
  rw [another kind source, one kind source]

end IsAfter

end Store

/-- If two stores hold the same in all variables, a pure graph does the same in both of them. -/
theorem Calculation.repeats_of_read_eq {calculation : Calculation kind}
    (isPure : calculation.IsIn .pure) (tracing : Bool) {here elsewhere : Store}
    (agree : ∀ {kind : Kind} (source : Variable kind),
      elsewhere.read source = here.read source) :
    calculation.evaluate.Repeats tracing here elsewhere calculation.evaluate := by
  have readOnly := calculation.respects Fragment.readOnly_pure isPure
  have admitted : ∀ entry ∈ (calculation.evaluate.run tracing here).journal,
      entry.IsTrueOf elsewhere := by
    intro entry noted
    have isTrue := (readOnly tracing here).2 entry noted
    cases entry with
    | read source value => exact isTrue.trans (agree source).symm
    | _ => trivial
  -- Nothing is replaced, so that only the stores differ.
  rcases Task.repeats_replaced (.run calculation) here .nothing isPure admitted fun _ _ => rfl with
    ⟨repeats, _⟩
  rwa [Task.replaced, replaced_nothing] at repeats

namespace Graph

variable {graph : Graph}

theorem store_eq (isPure : graph.calculation.IsIn .pure) (tracing : Bool) (store : Store) :
    (graph.evaluate.run tracing store).store = store :=
  (graph.calculation.respects Fragment.readOnly_pure isPure).store_eq tracing store

theorem runs_eq {graphs : List Graph} (allPure : ∀ graph ∈ graphs, graph.calculation.IsIn .pure)
    (tracing : Bool) (store : Store) :
    Evaluation.runs tracing store (graphs.map evaluate) =
      graphs.map fun graph => graph.evaluate.run tracing store := by
  induction graphs with
  | nil => rfl
  | cons graph graphs ih =>
      rcases List.forall_mem_cons.mp allPure with ⟨first, others⟩
      rw [List.map_cons, Evaluation.runs_cons, store_eq first, ih others, List.map_cons]

end Graph

namespace Use

theorem isAfter_perform {use : Use}
    (isPure : ∀ graph, use = .evaluate graph → graph.calculation.IsIn .pure) (tracing : Bool)
    (store : Store) : store.IsAfter [use] (use.perform.run tracing store).store := by
  intro kind source
  rw [lastSetting?_singleton]
  cases use with
  | evaluate graph =>
      have kept := Graph.store_eq (isPure graph rfl) tracing store
      rw [perform, kept, setting?, Option.getD_none]
  | set target value =>
      have left : ((set target value).perform.run tracing store).store =
        store.write target value := rfl
      rw [left, Store.ofValue_read_write, setting?]
      split <;> rfl

theorem isAfter_runs {history : List Use}
    (allPure : ∀ graph, .evaluate graph ∈ history → graph.calculation.IsIn .pure) (tracing : Bool)
    (store : Store) :
    store.IsAfter history
      (Run.storeAfter store (Evaluation.runs tracing store (history.map perform))) := by
  induction history generalizing store with
  | nil => exact .refl store
  | cons use history ih =>
      have first := isAfter_perform
        (fun graph same => allPure graph (same ▸ List.mem_cons_self)) tracing store
      have others := ih (fun graph member => allPure graph (List.mem_cons_of_mem use member))
        (use.perform.run tracing store).store
      exact first.trans others

/-- Evaluations of pure graphs only read, and can be repeated. Each of them leaves the store as it
is. If graphs are evaluated one after the other, in whatever order and however often, each gives
what it gives when it is evaluated alone. If variables are set in between, a graph gives, with all
its events, what it gives alone in any store that holds in every variable what the variable was set
to last. -/
theorem evaluations_repeat (graphs : List Graph)
    (allPure : ∀ graph ∈ graphs, graph.calculation.IsIn .pure) (tracing : Bool) (store : Store) :
    (∀ graph ∈ graphs, (graph.evaluate.run tracing store).store = store) ∧
    (∀ sequence ⊆ graphs,
      Evaluation.runs tracing store (sequence.map Graph.evaluate) =
        sequence.map fun graph => graph.evaluate.run tracing store) ∧
    ∀ history : List Use, (∀ graph, .evaluate graph ∈ history → graph ∈ graphs) →
      ∀ index graph, history[index]? = some (.evaluate graph) →
        ∃ run, (Evaluation.runs tracing store (history.map perform))[index]? = some run ∧
          ∀ alone, store.IsAfter (history.take index) alone →
            run.outcome = (graph.evaluate.run tracing alone).outcome ∧
            run.journal = (graph.evaluate.run tracing alone).journal := by
  refine ⟨fun graph member => Graph.store_eq (allPure graph member) tracing store, ?_, ?_⟩
  · intro sequence inside
    exact Graph.runs_eq (fun graph member => allPure graph (inside member)) tracing store
  · intro history inside index graph here
    have member := inside graph (List.mem_of_getElem? here)
    have found : store.IsAfter (history.take index) (Run.storeAfter store
        ((Evaluation.runs tracing store (history.map perform)).take index)) := by
      rw [Evaluation.take_runs, ← List.map_take]
      apply isAfter_runs
      intro earlier earlierMember
      exact allPure earlier (inside earlier (List.mem_of_mem_take earlierMember))
    refine ⟨_, by rw [Evaluation.getElem?_runs, List.getElem?_map, here]; rfl, ?_⟩
    intro alone isAfter
    have repeats := Calculation.repeats_of_read_eq (allPure graph member) tracing
      fun source => found.read_eq isAfter source
    have same : graph.evaluate.run tracing alone = _ := (repeats.map Scalar.ofValue).run_eq
    rw [same]
    exact ⟨rfl, rfl⟩

/-- A sum overflows and a comparison fails, again and again, until the variable that they share is
set. -/
theorem evaluations_repeat_of_overflow :
    let source : Variable .int := ⟨0⟩
    let doubled : Graph := ⟨.checkedSum (.ofList [.input source, .input source])⟩
    let compared : Graph := ⟨.equals (.failing (.message "lost")) (.input source)⟩
    let limit : Kind.int.Value := Int64.maxValue
    let store := (Store.empty.create limit).2
    let history : List Use :=
      [.evaluate doubled, .evaluate compared, .set source (1 : Int64), .evaluate doubled]
    (Evaluation.runs true store ([doubled, compared, doubled].map Graph.evaluate)).map
        Run.outcome =
      [.error (.overflow "addition"), .error (.aggregate [.message "lost"]),
        .error (.overflow "addition")] ∧
    ((Evaluation.runs true store (history.map perform))[3]?.map Run.outcome) =
      some (.ok (.int 2)) := by
  intro source doubled compared limit store history
  have allPure : ∀ graph ∈ [doubled, compared], graph.calculation.IsIn .pure := by
    intro graph member
    simp only [List.mem_cons, List.not_mem_nil, or_false] at member
    rcases member with rfl | rfl
    · exact ⟨fun _ _ => ⟨_, rfl⟩, trivial, trivial, trivial, trivial⟩
    · exact ⟨trivial, trivial⟩
  rcases evaluations_repeat [doubled, compared] allPure true store with ⟨_, alone, later⟩
  constructor
  · have overflows : (doubled.evaluate.run true store).outcome =
        .error (.overflow "addition") := by
      subst doubled store limit source
      rfl
    have fails : (compared.evaluate.run true store).outcome =
        .error (.aggregate [.message "lost"]) := rfl
    rw [alone _ (by simp)]
    simp only [List.map_cons, List.map_nil, overflows, fails]
  · have isAfter : store.IsAfter (history.take 3) (store.write source (1 : Int64)) := by
      intro kind other
      rw [Store.ofValue_read_write]
      by_cases same : source.cell = other.cell
      · simp [history, lastSetting?, setting?, same]
      · simp [history, lastSetting?, List.findSome?, setting?, same]
    rcases later history (by simp [history]) 3 doubled rfl with ⟨run, here, given⟩
    rw [here, Option.map_some, (given _ isAfter).1]
    subst doubled store limit source
    rfl

end Use

end Deferred
