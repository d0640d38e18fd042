import Deferred.Calculation

/-!
# Scopes

A scope gives names to variables, calculations and failures. All of them share one space of names,
and naming something anew replaces what had the name before. Forgetting a name does not touch the
object: whoever holds it keeps it.
-/

namespace Deferred

/-- What a name can stand for. -/
inductive Binding where
  | cell {kind : Kind} (source : Variable kind)
  /-- A calculation, with its operands if it shows them. -/
  | node {kind : Kind} (calculation : Calculation kind) (operands : Option (Operands kind))
  /-- A failing calculation, which serves for either kind. -/
  | failing (failure : Failure)

namespace Binding

/-- The calculation of the given kind that a binding stands for. -/
def calculation? (binding : Binding) (kind : Kind) : Option (Calculation kind) :=
  match binding with
  | @cell own source => if same : own = kind then some (.input (same ▸ source)) else none
  | @node own calculation _ => if same : own = kind then some (same ▸ calculation) else none
  | failing failure => some (.failing failure)

/-- Whether a binding stands for a calculation that shows its operands. -/
def showsOperands : Binding → Bool
  | .node _ operands => operands.isSome
  | _ => false

@[simp]
theorem calculation?_node {kind : Kind} (calculation : Calculation kind)
    (operands : Option (Operands kind)) :
    (node calculation operands).calculation? kind = some calculation := by
  simp [calculation?]

end Binding

/-- Names and what they stand for. -/
structure Scope where
  bindings : List (String × Binding)

namespace Scope

/-- The scope without any names. -/
def empty : Scope := ⟨[]⟩

/-- What a name stands for. -/
def find? (scope : Scope) (name : String) : Option Binding :=
  scope.bindings.lookup name

/-- Forgets a name. -/
def erase (scope : Scope) (name : String) : Scope :=
  ⟨scope.bindings.filter fun entry => entry.1 != name⟩

/-- Lets a name stand for something, whatever it stood for before. -/
def insert (scope : Scope) (name : String) (binding : Binding) : Scope :=
  ⟨(name, binding) :: (scope.erase name).bindings⟩

@[simp]
theorem find?_erase_self (scope : Scope) (name : String) :
    (scope.erase name).find? name = none := by
  simp only [find?, erase, List.lookup_eq_none_iff]
  intro entry member
  have different : entry.1 ≠ name := by simpa using (List.mem_filter.mp member).2
  simpa using Ne.symm different

theorem find?_erase_of_ne (scope : Scope) {name other : String} (ne : other ≠ name) :
    (scope.erase name).find? other = scope.find? other := by
  unfold find? erase
  generalize scope.bindings = bindings
  induction bindings with
  | nil => rfl
  | cons entry bindings ih =>
      rcases entry with ⟨key, binding⟩
      by_cases erased : key = name
      · subst erased
        have different : (other == key) = false := beq_eq_false_iff_ne.mpr ne
        simp [List.lookup_cons, different, ih]
      · simp [List.lookup_cons, erased, ih]

@[simp]
theorem find?_insert_self (scope : Scope) (name : String) (binding : Binding) :
    (scope.insert name binding).find? name = some binding := by
  simp [find?, insert]

theorem find?_insert_of_ne (scope : Scope) {name other : String} (binding : Binding)
    (ne : other ≠ name) : (scope.insert name binding).find? other = scope.find? other := by
  have different : (other == name) = false := beq_eq_false_iff_ne.mpr ne
  rw [← find?_erase_of_ne scope ne]
  simp [find?, insert, List.lookup_cons, different]

end Scope

end Deferred
