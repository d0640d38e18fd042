import Deferred.Proofs.Effects

/-!
# Cells and what was put into them last

A `Cell` is what all handles on one variable have in common. `Store.contents` says what the cells of
a store hold; a cell that was not created holds nothing.

`Replays` reads a journal as accesses to the cells: a variable that is created gets a cell that held
nothing, only existing cells are written, and what is read is what the cell holds. So whatever a
cell holds in the end is what was put into it last (`Replays.last_eq`). Every evaluation of a graph
whose handles are all on existing cells is replayed by its journal, whatever its procedures do in
between: the fragment of these graphs respects replaying (`Fragment.replay_over`), and so does every
graph in it (`Calculation.respects`).
-/

namespace Deferred

variable {kind : Kind} {α : Type}

/-- The cell that the handles on a variable share. -/
structure Cell where
  kind : Kind
  index : Nat
deriving DecidableEq

/-- The cell that a handle is on. -/
def Variable.cell (source : Variable kind) : Cell := ⟨kind, source.index⟩

/-- What cells hold. A cell that does not exist holds nothing. -/
abbrev Contents := Cell → Option Scalar

/-- What an entry puts into a cell, if it puts something there. -/
def Entry.put? (cell : Cell) : Entry → Option Scalar
  | .created source value => if source.cell = cell then some (.ofValue value) else none
  | .wrote target value => if target.cell = cell then some (.ofValue value) else none
  | _ => none

/-- What was put into a cell last. -/
def lastPut? (journal : List Entry) (cell : Cell) : Option Scalar :=
  journal.reverse.findSome? (Entry.put? cell)

@[simp]
theorem lastPut?_nil (cell : Cell) : lastPut? [] cell = none := rfl

theorem lastPut?_append (first second : List Entry) (cell : Cell) :
    lastPut? (first ++ second) cell = (lastPut? second cell).or (lastPut? first cell) := by
  simp [lastPut?]

theorem lastPut?_cons (entry : Entry) (journal : List Entry) (cell : Cell) :
    lastPut? (entry :: journal) cell = (lastPut? journal cell).or (entry.put? cell) := by
  rw [← List.singleton_append, lastPut?_append]
  simp [lastPut?]

namespace Contents

/-- What the cells hold after what an entry notes. -/
def after (contents : Contents) (entry : Entry) : Contents :=
  fun cell => (entry.put? cell).or (contents cell)

/-- Whether what an entry notes can happen: a variable that is created gets a cell that held
nothing, what is read is what the cell holds, and only existing cells are written. -/
def Allows (contents : Contents) : Entry → Prop
  | .created source _ => contents source.cell = none
  | .read source value => contents source.cell = some (.ofValue value)
  | .wrote target _ => (contents target.cell).isSome
  | _ => True

theorem after_of_put?_eq_none {contents : Contents} {entry : Entry}
    (nothing : ∀ cell, entry.put? cell = none) : contents.after entry = contents := by
  funext cell
  simp [after, nothing]

end Contents

/-- The accesses in a journal lead from some contents of the cells to others. -/
inductive Replays : Contents → List Entry → Contents → Prop where
  | nil (contents : Contents) : Replays contents [] contents
  | cons {contents last : Contents} {entry : Entry} {journal : List Entry}
      (allowed : contents.Allows entry) (rest : Replays (contents.after entry) journal last) :
      Replays contents (entry :: journal) last

namespace Replays

variable {contents middle last : Contents} {journal first second : List Entry}

theorem append (before : Replays contents first middle) (rest : Replays middle second last) :
    Replays contents (first ++ second) last := by
  induction before with
  | nil contents => exact rest
  | cons allowed _ ih => exact .cons allowed (ih rest)

theorem singleton {entry : Entry} (allowed : contents.Allows entry) :
    Replays contents [entry] (contents.after entry) :=
  .cons allowed (.nil _)

theorem of_put?_eq_none {entry : Entry} (allowed : contents.Allows entry)
    (nothing : ∀ cell, entry.put? cell = none) : Replays contents [entry] contents := by
  have replays := singleton allowed
  rwa [Contents.after_of_put?_eq_none nothing] at replays

/-- Whatever a cell holds in the end was put into it last, or was there before. -/
theorem last_eq (replays : Replays contents journal last) (cell : Cell) :
    last cell = (lastPut? journal cell).or (contents cell) := by
  induction replays with
  | nil contents => simp
  | cons _ _ ih => rw [ih, lastPut?_cons, Contents.after, Option.or_assoc]

theorem isSome_last (replays : Replays contents journal last) {cell : Cell}
    (existing : (contents cell).isSome) : (last cell).isSome := by
  rw [replays.last_eq]
  simp [existing]

theorem split (whole : Replays contents (first ++ second) last) :
    ∃ middle, Replays contents first middle ∧ Replays middle second last := by
  induction first generalizing contents with
  | nil => exact ⟨contents, .nil contents, whole⟩
  | cons entry first ih =>
      rcases whole with _ | ⟨allowed, rest⟩
      rcases ih rest with ⟨middle, before, rest⟩
      exact ⟨middle, .cons allowed before, rest⟩

/-- Whatever is noted in the course of a journal can happen after what was noted before. -/
theorem allows_at {entry : Entry}
    (whole : Replays contents (first ++ entry :: second) last) :
    Contents.Allows (fun cell => (lastPut? first cell).or (contents cell)) entry := by
  rcases whole.split with ⟨middle, before, rest⟩
  rcases rest with _ | ⟨allowed, _⟩
  rwa [← funext before.last_eq]

end Replays

/-! ## The cells of a store -/

@[simp]
theorem Row.size_write_of_lt {row : Row α} [Inhabited α] {index : Nat} (existing : index < row.size)
    (value : α) : (row.write index value).size = row.size := by
  have inside : index < row.cells.size := existing
  simp [write, size, inside]

@[simp]
theorem Row.size_push (row : Row α) [Inhabited α] (value : α) :
    (row.push value).size = row.size + 1 := by
  simp [push, size]

namespace Store

variable {store : Store}

/-- The number of variables of a kind that were created. -/
def size (store : Store) : Kind → Nat
  | .bool => store.bools.size
  | .int => store.ints.size

theorem size_write {target : Variable kind} (existing : target.index < store.size kind)
    (value : kind.Value) (other : Kind) :
    (store.write target value).size other = store.size other := by
  cases kind <;> cases other <;> simp_all [size, write]

theorem size_create (value : kind.Value) (other : Kind) :
    (store.create value).2.size other = store.size other + if kind = other then 1 else 0 := by
  cases kind <;> cases other <;> simp [size, create]

theorem index_create (value : kind.Value) : (store.create value).1.index = store.size kind := by
  cases kind <;> rfl

/-- What the cells of a store hold. -/
def contents (store : Store) : Contents := fun cell =>
  if cell.index < store.size cell.kind then
    some (.ofValue (store.read (⟨cell.index⟩ : Variable cell.kind)))
  else
    none

@[simp]
theorem contents_empty (cell : Cell) : empty.contents cell = none := by
  rcases cell with ⟨kind, index⟩
  cases kind <;> simp [contents, size, empty, Row.size, Row.empty]

theorem isSome_contents_iff {source : Variable kind} :
    (store.contents source.cell).isSome ↔ source.index < store.size kind := by
  by_cases existing : source.index < store.size kind <;> simp [contents, Variable.cell, existing]

/-- What an existing cell holds is what is read from it. -/
theorem contents_cell {source : Variable kind} (existing : (store.contents source.cell).isSome) :
    store.contents source.cell = some (.ofValue (store.read source)) :=
  if_pos (isSome_contents_iff.mp existing)

theorem contents_write {target : Variable kind} (existing : (store.contents target.cell).isSome)
    (value : kind.Value) :
    (store.write target value).contents = store.contents.after (.wrote target value) := by
  have inside := isSome_contents_iff.mp existing
  funext cell
  rcases cell with ⟨other, index⟩
  simp only [Contents.after, Entry.put?, contents, size_write inside, Variable.cell, Cell.mk.injEq]
  by_cases same : kind = other
  · subst same
    by_cases here : target.index = index
    · subst here
      simp [inside]
    · have ne : (⟨index⟩ : Variable kind) ≠ target := by
        intro same
        exact here (congrArg Variable.index same).symm
      simp [here, read_write_of_ne _ _ ne]
  · simp [same, read_write_of_kind_ne _ _ _ _ (Ne.symm same)]

theorem contents_create_fresh (value : kind.Value) :
    store.contents (store.create value).1.cell = none := by
  simp [contents, Variable.cell, index_create]

theorem contents_create (value : kind.Value) :
    (store.create value).2.contents =
      store.contents.after (.created (store.create value).1 value) := by
  funext cell
  rcases cell with ⟨other, index⟩
  simp only [Contents.after, Entry.put?, contents, size_create, Variable.cell, Cell.mk.injEq,
    index_create]
  by_cases same : kind = other
  · subst same
    by_cases here : store.size kind = index
    · have new : (store.create value).1 = ⟨index⟩ := by
        rw [← here, ← index_create value]
      simp [here, ← new]
    · have ne : (⟨index⟩ : Variable kind) ≠ (store.create value).1 := by
        intro same
        exact here ((index_create value).symm.trans (congrArg Variable.index same).symm)
      have bound : index < store.size kind + 1 ↔ index < store.size kind := by omega
      simp [here, bound, read_create_of_ne _ _ ne]
  · simp [same, read_create_of_kind_ne _ _ _ (Ne.symm same)]

theorem isSome_contents_create (value : kind.Value) :
    ((store.create value).2.contents (store.create value).1.cell).isSome := by
  rw [contents_create]
  simp [Contents.after, Entry.put?]

@[simp]
theorem contents_setCount (slot : Slot) (count : Nat) :
    (store.setCount slot count).contents = store.contents := by
  funext cell
  rcases cell with ⟨kind, index⟩
  cases kind <;> rfl

@[simp]
theorem contents_createSlot : store.createSlot.2.contents = store.contents := by
  funext cell
  rcases cell with ⟨kind, index⟩
  cases kind <;> rfl

end Store

/-! ## Evaluations over existing cells -/

/-- As long as some cells exist, the journal leads from what the cells hold at first to what they
hold in the end. -/
def Effect.replay (known : Cell → Prop) : Effect where
  allows store journal left :=
    (∀ cell, known cell → (store.contents cell).isSome) →
      Replays store.contents journal left.contents
  nothing store _ := .nil store.contents
  append := by
    intro store middle last first second before rest existing
    have begun := before existing
    exact begun.append (rest fun cell isKnown => begun.isSome_last (existing cell isKnown))
  event store event _ := .of_put?_eq_none trivial fun _ => rfl
  raised store origin failure _ := .of_put?_eq_none trivial fun _ => rfl

namespace Evaluation

variable {known : Cell → Prop}

theorem replay_read {source : Variable kind} (isKnown : known source.cell) :
    (read source).Respects (.replay known) := by
  intro tracing store existing
  exact .of_put?_eq_none (Store.contents_cell (existing _ isKnown)) fun _ => rfl

theorem replay_write {target : Variable kind} (isKnown : known target.cell) (value : kind.Value) :
    (write target value).Respects (.replay known) := by
  apply (Respects.emit _).bind
  intro _ tracing store existing
  have isExisting := existing _ isKnown
  rw [Store.contents_write isExisting value]
  exact .singleton isExisting

theorem replay_record {entry : Entry} (allowed : ∀ contents : Contents, contents.Allows entry)
    (nothing : ∀ cell, entry.put? cell = none) : (record entry).Respects (.replay known) :=
  fun _ store _ => .of_put?_eq_none (allowed store.contents) nothing

end Evaluation

/-- All handles in a procedure are on known cells. -/
def Procedure.IsOver (known : Cell → Prop) : Procedure α → Prop
  | .finish _ => True
  | .announce _ rest => rest.IsOver known
  | .read source rest => known source.cell ∧ ∀ value, (rest value).IsOver known
  | .write target _ rest => known target.cell ∧ rest.IsOver known
  | .fetch _ rest => ∀ count, (rest count).IsOver known
  | .keep _ _ rest => rest.IsOver known

theorem Procedure.isOver_mono {smaller larger : Cell → Prop}
    (includes : ∀ cell, smaller cell → larger cell) {procedure : Procedure α}
    (isOver : procedure.IsOver smaller) : procedure.IsOver larger := by
  induction procedure with
  | finish result => trivial
  | announce label rest ih => exact ih isOver
  | read source rest ih => exact ⟨includes _ isOver.1, fun value => ih value (isOver.2 value)⟩
  | write target value rest ih => exact ⟨includes _ isOver.1, ih isOver.2⟩
  | fetch slot rest ih => exact fun count => ih count (isOver count)
  | keep slot count rest ih => exact ih isOver

/-- The fragment in which all handles are on known cells. -/
def Fragment.over (known : Cell → Prop) : Fragment where
  input source := known source.cell
  supplied procedure := procedure.IsOver known
  preceded procedure := procedure.IsOver known
  operation operation := ∀ lhs rhs, (operation.body lhs rhs).IsOver known
  reducer reducer := ∀ accumulated next, (reducer.body accumulated next).IsOver known

theorem Fragment.includes_over {smaller larger : Cell → Prop}
    (includes : ∀ cell, smaller cell → larger cell) :
    (Fragment.over larger).Includes (.over smaller) where
  input isKnown := includes _ isKnown
  supplied isOver := Procedure.isOver_mono includes isOver
  preceded isOver := Procedure.isOver_mono includes isOver
  operation isOver := fun lhs rhs => Procedure.isOver_mono includes (isOver lhs rhs)
  reducer isOver := fun accumulated next => Procedure.isOver_mono includes (isOver accumulated next)

/-- A procedure is replayed by what it notes, whatever it does in between. -/
theorem Procedure.replay_perform {known : Cell → Prop} {procedure : Procedure α}
    (isOver : procedure.IsOver known) : procedure.perform.Respects (.replay known) := by
  induction procedure with
  | finish result => exact .pure result
  | announce label rest ih =>
      apply Evaluation.Respects.bind
      · exact Evaluation.replay_record (fun _ => trivial) fun _ => rfl
      · intro _
        exact ih isOver
  | read source rest ih =>
      apply (Evaluation.replay_read isOver.1).bind
      intro value
      exact ih value (isOver.2 value)
  | write target value rest ih =>
      apply (Evaluation.replay_write isOver.1 value).bind
      intro _
      exact ih isOver.2
  | fetch slot rest ih =>
      apply Evaluation.Respects.bind
      · exact fun tracing store _ => .nil store.contents
      · intro count
        exact ih count (isOver count)
  | keep slot count rest ih =>
      apply Evaluation.Respects.bind
      · intro tracing store _
        rw [Evaluation.run_setCount, Store.contents_setCount]
        exact .nil store.contents
      · intro _
        exact ih isOver

theorem Fragment.replay_over (known : Cell → Prop) :
    (Fragment.over known).Respects (.replay known) where
  input isKnown := Evaluation.replay_read isKnown
  supplied isOver := Procedure.replay_perform isOver
  preceded isOver := Procedure.replay_perform isOver
  operation := by
    intro kind operation isOver lhs rhs
    apply Evaluation.Respects.bind
    · exact Evaluation.replay_record (fun _ => trivial) fun _ => rfl
    · intro _
      exact Procedure.replay_perform (isOver lhs rhs)
  reducer := by
    intro kind reducer isOver accumulated next
    apply Evaluation.Respects.bind
    · exact Evaluation.replay_record (fun _ => trivial) fun _ => rfl
    · intro _
      apply (Procedure.replay_perform (isOver accumulated next)).bind
      intro outcome
      exact .settle .reducer outcome

end Deferred
