import Deferred.Evaluation

/-!
# Procedures

A calculation or a function supplied from outside is known by what it does to the world. A
`Procedure` is a finite script of the things that it can do: announce a label, read and write
variables, and keep a count in a slot of its own. What it does next may depend on what it has read.
`Procedure.perform` does it.
-/

namespace Deferred

/-- What something supplied from outside does, step by step. -/
inductive Procedure (α : Type) where
  | finish (result : α)
  | announce (label : String) (rest : Procedure α)
  | read {kind : Kind} (source : Variable kind) (rest : kind.Value → Procedure α)
  | write {kind : Kind} (target : Variable kind) (value : kind.Value) (rest : Procedure α)
  /-- Goes on with the count kept in a slot. -/
  | fetch (slot : Slot) (rest : Nat → Procedure α)
  /-- Keeps a count in a slot, and goes on. -/
  | keep (slot : Slot) (count : Nat) (rest : Procedure α)

namespace Procedure

variable {α β : Type}

/-- Does what a procedure says. -/
def perform : Procedure α → Evaluation α
  | .finish result => pure result
  | .announce label rest => do
    .record (.evaluated label)
    rest.perform
  | .read source rest => do
    let value ← .read source
    (rest value).perform
  | .write target value rest => do
    .write target value
    rest.perform
  | .fetch slot rest => do
    let count ← .count slot
    (rest count).perform
  | .keep slot count rest => do
    .setCount slot count
    rest.perform

/-- Does the same, and gives a function of the result. -/
def map (function : α → β) : Procedure α → Procedure β
  | .finish result => .finish (function result)
  | .announce label rest => .announce label (rest.map function)
  | .read source rest => .read source fun value => (rest value).map function
  | .write target value rest => .write target value (rest.map function)
  | .fetch slot rest => .fetch slot fun count => (rest count).map function
  | .keep slot count rest => .keep slot count (rest.map function)

/-- Announces a label and gives the next one of several outcomes. The slot counts how often it was
performed. After the last outcome comes the first one again. -/
def script (label : String) (slot : Slot) (first : α) (others : List α) : Procedure α :=
  .announce label <| .fetch slot fun count => .keep slot (count + 1) <|
    have inside : count % (first :: others).length < (first :: others).length :=
      Nat.mod_lt count (Nat.succ_pos others.length)
    .finish (first :: others)[count % (first :: others).length]

@[simp]
theorem perform_finish (result : α) : (finish result).perform = pure result := rfl

theorem perform_announce (label : String) (rest : Procedure α) :
    (announce label rest).perform =
      Evaluation.record (.evaluated label) >>= fun _ => rest.perform := rfl

theorem perform_read {kind : Kind} (source : Variable kind) (rest : kind.Value → Procedure α) :
    (read source rest).perform =
      Evaluation.read source >>= fun value => (rest value).perform := rfl

theorem perform_write {kind : Kind} (target : Variable kind) (value : kind.Value)
    (rest : Procedure α) :
    (write target value rest).perform =
      Evaluation.write target value >>= fun _ => rest.perform := rfl

theorem perform_fetch (slot : Slot) (rest : Nat → Procedure α) :
    (fetch slot rest).perform =
      Evaluation.count slot >>= fun count => (rest count).perform := rfl

theorem perform_keep (slot : Slot) (count : Nat) (rest : Procedure α) :
    (keep slot count rest).perform =
      Evaluation.setCount slot count >>= fun _ => rest.perform := rfl

@[simp]
theorem map_finish (function : α → β) (result : α) :
    (finish result).map function = finish (function result) := rfl

end Procedure

end Deferred
