import Deferred.Scalar

/-!
# The store

Variables and the private counts of calculations supplied from outside live in a `Store`. A
handle names a cell: two equal handles name the same cell, so copying a handle shares the cell. A
store has a value for every handle; a cell that nobody wrote holds the zero value of its kind.

What a write does is said by `read_write_self` and its companions, and nothing else has to look at
how cells are kept.
-/

namespace Deferred

/-- A row of cells numbered from zero. Cells beyond the end hold the default value. -/
structure Row (α : Type) where
  /-- The cells that were created or written. -/
  cells : Array α

namespace Row

variable {α : Type}

/-- The row in which every cell holds the default value. -/
def empty : Row α := ⟨#[]⟩

variable [Inhabited α]

/-- The value of a cell. -/
def read (row : Row α) (index : Nat) : α :=
  row.cells[index]?.getD default

/-- Puts a value into a cell. A row that is too short is first filled up with default values. -/
def write (row : Row α) (index : Nat) (value : α) : Row α :=
  if index < row.cells.size then
    ⟨row.cells.setIfInBounds index value⟩
  else
    ⟨(row.cells ++ Array.replicate (index - row.cells.size) default).push value⟩

/-- The number of the first cell behind the row. -/
def size (row : Row α) : Nat :=
  row.cells.size

/-- Adds a cell behind the row. -/
def push (row : Row α) (value : α) : Row α :=
  ⟨row.cells.push value⟩

@[simp]
theorem read_write_self (row : Row α) (index : Nat) (value : α) :
    (row.write index value).read index = value := by
  unfold write
  split <;> grind [read]

theorem read_write_of_ne (row : Row α) {index other : Nat} (value : α) (ne : other ≠ index) :
    (row.write index value).read other = row.read other := by
  unfold write
  split <;> grind [read]

@[simp]
theorem read_push_size (row : Row α) (value : α) : (row.push value).read row.size = value := by
  simp [read, push, size]

theorem read_push_of_ne (row : Row α) {index : Nat} (value : α) (ne : index ≠ row.size) :
    (row.push value).read index = row.read index := by
  have ne' : index ≠ row.cells.size := ne
  simp [read, push, Array.getElem?_push, ne']

end Row

/-- A handle on a variable of the given kind. -/
structure Variable (kind : Kind) where
  index : Nat
deriving DecidableEq, Repr

/-- A handle on the private count of a calculation supplied from outside. -/
structure Slot where
  index : Nat
deriving DecidableEq, Repr

/-- Everything that an evaluation can read and change. -/
structure Store where
  bools : Row Bool
  ints : Row Int64
  /-- The counts of calculations supplied from outside. -/
  counts : Row Nat

namespace Store

/-- The store in which every cell holds its zero value. -/
def empty : Store := ⟨.empty, .empty, .empty⟩

/-- The value of a variable. -/
def read (store : Store) : {kind : Kind} → Variable kind → kind.Value
  | .bool, source => store.bools.read source.index
  | .int, source => store.ints.read source.index

/-- Puts a value into a variable. -/
def write (store : Store) : {kind : Kind} → Variable kind → kind.Value → Store
  | .bool, target, value => { store with bools := store.bools.write target.index value }
  | .int, target, value => { store with ints := store.ints.write target.index value }

/-- A new variable that holds the given value, and the store that has it. -/
def create (store : Store) : {kind : Kind} → kind.Value → Variable kind × Store
  | .bool, value => (⟨store.bools.size⟩, { store with bools := store.bools.push value })
  | .int, value => (⟨store.ints.size⟩, { store with ints := store.ints.push value })

/-- The count kept in a slot. -/
def count (store : Store) (slot : Slot) : Nat :=
  store.counts.read slot.index

/-- Keeps a count in a slot. -/
def setCount (store : Store) (slot : Slot) (count : Nat) : Store :=
  { store with counts := store.counts.write slot.index count }

/-- A new slot that keeps zero, and the store that has it. -/
def createSlot (store : Store) : Slot × Store :=
  (⟨store.counts.size⟩, { store with counts := store.counts.push 0 })

@[simp]
theorem read_write_self (store : Store) {kind : Kind} (target : Variable kind)
    (value : kind.Value) : (store.write target value).read target = value := by
  cases kind <;> simp [read, write]

theorem read_write_of_ne (store : Store) {kind : Kind} {target source : Variable kind}
    (value : kind.Value) (ne : source ≠ target) :
    (store.write target value).read source = store.read source := by
  have index_ne : source.index ≠ target.index := by
    intro same
    apply ne
    cases source
    cases target
    simp_all
  cases kind <;> simp [read, write, Row.read_write_of_ne _ _ index_ne]

theorem read_write_of_kind_ne (store : Store) {kind other : Kind} (target : Variable kind)
    (source : Variable other) (value : kind.Value) (ne : other ≠ kind) :
    (store.write target value).read source = store.read source := by
  cases kind <;> cases other <;> simp_all [read, write]

@[simp]
theorem read_create_self (store : Store) {kind : Kind} (value : kind.Value) :
    (store.create value).2.read (store.create value).1 = value := by
  cases kind <;> simp [read, create]

theorem read_create_of_ne (store : Store) {kind : Kind} {source : Variable kind}
    (value : kind.Value) (ne : source ≠ (store.create value).1) :
    (store.create value).2.read source = store.read source := by
  cases kind <;>
  · have index_ne : source.index ≠ _ := fun same => ne (by
      cases source
      simpa [create] using same)
    simp [read, create, Row.read_push_of_ne _ _ index_ne]

theorem read_create_of_kind_ne (store : Store) {kind other : Kind} (source : Variable other)
    (value : kind.Value) (ne : other ≠ kind) :
    (store.create value).2.read source = store.read source := by
  cases kind <;> cases other <;> simp_all [read, create]

end Store

end Deferred
