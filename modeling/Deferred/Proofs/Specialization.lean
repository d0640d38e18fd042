import Deferred.Proofs.Congruence
import Deferred.Proofs.Listening
import Deferred.Proofs.Relevance

/-!
# Specialization

A graph can be specialized to a store. Some parts of it are run ahead, each on its own, and a leaf
that gives the value or raises the failure of such a part is put in its place. A pure graph comes to
the same after that, whatever the parts are, and whether or not they are demanded. In particular,
all variables may be replaced by what they hold.

The proof has nothing to say about the combinators around the parts: a part and its leaf match, and
matching is kept by everything that can be around them.
-/

namespace Deferred

variable {kind : Kind}

/-- The leaf that comes to what a calculation comes to in a store. -/
def Calculation.settled (store : Store) (calculation : Calculation kind) : Calculation kind :=
  match (calculation.evaluate.run false store).outcome with
  | .ok value => .constant value
  | .error failure => .failing failure

/-- Puts leaves in the place of the chosen parts, each of which is run on its own in a store. -/
def Replacement.settling (store : Store) (chosen : List Nat → Bool) : Replacement :=
  fun position => if chosen position then some fun _ => Calculation.settled store else none

/-- Puts constants in the place of all variables, with the values that these hold in a store. -/
def Placement.freezing (store : Store) : Placement :=
  fun _ _ own rebuilt =>
    match own with
    | .input source => .constant (store.read source)
    | _ => rebuilt

/-- A graph with constants in the place of all variables. -/
def Calculation.frozen (store : Store) (calculation : Calculation kind) : Calculation kind :=
  calculation.rebuilt (.freezing store)

/-! ## Placements and rules -/

/-- What is put at a position is what stood there, with its parts rebuilt, or what a rule makes of
what stood there. -/
def Placement.Follows (rule : Rule) (placement : Placement) : Prop :=
  ∀ (position : List Nat) (kind : Kind) (own rebuilt : Calculation kind),
    own.Rewritten rule rebuilt → own.Rewritten rule (placement position kind own rebuilt)

theorem Placement.Follows.part {rule : Rule} {placement : Placement}
    (follows : placement.Follows rule) (index : Nat) : (placement.part index).Follows rule :=
  fun position => follows (index :: position)

mutual

theorem Calculation.rewritten_rebuilt {rule : Rule} : {kind : Kind} → {placement : Placement} →
    placement.Follows rule → (calculation : Calculation kind) →
    calculation.Rewritten rule (calculation.rebuilt placement)
  | _, _, follows, .constant value => follows [] _ _ _ (.constant value)
  | _, _, follows, .input source => follows [] _ _ _ (.input source)
  | _, _, follows, .failing failure => follows [] _ _ _ (.failing failure)
  | _, _, follows, .supplied procedure => follows [] _ _ _ (.supplied procedure)
  | _, _, follows, .preceded procedure operand =>
    follows [] _ _ _ (.preceded procedure (operand.rewritten_rebuilt (follows.part 0)))
  | _, _, follows, .not operand =>
    follows [] _ _ _ (.not (operand.rewritten_rebuilt (follows.part 0)))
  | _, _, follows, .signum operand =>
    follows [] _ _ _ (.signum (operand.rewritten_rebuilt (follows.part 0)))
  | _, _, follows, .equals lhs rhs =>
    follows [] _ _ _ <| .equals (lhs.rewritten_rebuilt (follows.part 0))
      (rhs.rewritten_rebuilt (follows.part 1))
  | _, _, follows, .conditional condition ifTrue ifFalse =>
    follows [] _ _ _ <| .conditional (condition.rewritten_rebuilt (follows.part 0))
      (ifTrue.rewritten_rebuilt (follows.part 1)) (ifFalse.rewritten_rebuilt (follows.part 2))
  | _, _, follows, .binary operation lhs rhs =>
    follows [] _ _ _ <| .binary operation (lhs.rewritten_rebuilt (follows.part 0))
      (rhs.rewritten_rebuilt (follows.part 1))
  | _, _, follows, .reduceLeft reducer initial operands =>
    follows [] _ _ _ <| .reduceLeft reducer (initial.rewritten_rebuilt (follows.part 0))
      (operands.rewritten_rebuilt follows 1)

theorem Operands.rewritten_rebuilt {rule : Rule} : {kind : Kind} → {placement : Placement} →
    (operands : Operands kind) → placement.Follows rule → (index : Nat) →
    operands.Rewritten rule (operands.rebuilt placement index)
  | _, _, .nil, _, _ => .nil
  | _, _, .cons operand operands, follows, index =>
    .cons (operand.rewritten_rebuilt (follows.part index))
      (operands.rewritten_rebuilt follows (index + 1))

end

/-! ## Leaves instead of parts -/

/-- A calculation becomes the leaf that comes to the same in a store. -/
def Rule.settling (store : Store) : Rule :=
  fun _ own other => other = own.settled store

theorem Replacement.follows_settling (store : Store) (chosen : List Nat → Bool) :
    (settling store chosen).placement.Follows (.settling store) := by
  intro position kind own rebuilt inside
  unfold placement settling
  split
  · exact .rule rfl
  · exact inside

theorem Placement.follows_freezing (store : Store) :
    (freezing store).Follows (.settling store) := by
  intro position kind own rebuilt inside
  unfold freezing
  split
  -- The constant in its place is what the variable is settled to, by the definition of reading.
  · exact .rule rfl
  · exact inside

namespace Calculation

theorem run_evaluate_settled (calculation : Calculation kind) (store : Store) (tracing : Bool)
    (elsewhere : Store) :
    ∃ journal, (calculation.settled store).evaluate.run tracing elsewhere =
      ⟨(calculation.evaluate.run false store).outcome, elsewhere, journal⟩ := by
  unfold settled
  cases (calculation.evaluate.run false store).outcome with
  | ok value => exact ⟨[], rfl⟩
  | error failure => exact ⟨[.raised .failing failure], rfl⟩

theorem matches_settled {calculation : Calculation kind} (isPure : calculation.IsIn .pure)
    (store : Store) :
    calculation.evaluate.Matches (.only store) (calculation.settled store).evaluate := by
  intro tracing found same
  obtain rfl : found = store := same
  rcases calculation.run_evaluate_settled found tracing found with ⟨journal, ran⟩
  have kept := (calculation.respects Fragment.readOnly_pure isPure).store_eq tracing found
  rw [ran]
  refine ⟨?_, kept.symm, ?_, kept⟩
  -- The leaf was made without a listener, and may be run with one.
  · exact (calculation.indifferent.outcome_eq tracing found).symm
  · simp [View.only]

/-- Any parts of a pure graph may be run ahead. If leaves with the outcomes that some parts have on
their own in a store are put in the place of these parts, demanded or not, the graph comes to the
same value or failure in this store. So it does if all variables are replaced by what they hold. -/
theorem specialized_comes_to_the_same (calculation : Calculation kind)
    (isPure : calculation.IsIn .pure) (tracing : Bool) (store : Store) :
    (∀ chosen : List Nat → Bool,
      ((calculation.replaced (.settling store chosen)).evaluate.run tracing store).outcome =
        (calculation.evaluate.run tracing store).outcome) ∧
    ((calculation.frozen store).evaluate.run tracing store).outcome =
      (calculation.evaluate.run tracing store).outcome := by
  have stays : Fragment.pure.Respects (View.only store).staying := by
    apply Fragment.readOnly_pure.mono
    rintro found journal after ⟨rfl, _⟩ inView
    exact inView
  have sound : ∀ {kind : Kind} {own other : Calculation kind}, own.IsIn .pure →
      Rule.settling store kind own other →
      own.evaluate.Matches (.only store) other.evaluate := by
    rintro kind own other within rfl
    exact matches_settled within store
  constructor
  · intro chosen
    have rewritten := calculation.rewritten_rebuilt (Replacement.follows_settling store chosen)
    exact (rewritten.matches stays sound isPure tracing store rfl).outcome_eq
  · have rewritten := calculation.rewritten_rebuilt (Placement.follows_freezing store)
    exact (rewritten.matches stays sound isPure tracing store rfl).outcome_eq

/-- A failing operand of a sum is run ahead, and so is the branch that is not selected. -/
theorem specialized_comes_to_the_same_of_sum :
    let source : Variable .int := ⟨0⟩
    let store := Store.empty.write source (5 : Int64)
    let lost : Calculation .int := .difference (.failing (.message "lost")) (.input source)
    let calculation : Calculation .int :=
      .sum (.ofList [.input source, lost, .conditional (.constant true) (.input source) lost])
    let chosen (position : List Nat) : Bool := position == [2] || position == [3, 2]
    let outcome : Outcome Int64 := .error (.aggregate [.aggregate [.message "lost"]])
    calculation.IsIn .pure ∧
      ((calculation.replaced (.settling store chosen)).evaluate.run true store).outcome = outcome ∧
      ((calculation.frozen store).evaluate.run true store).outcome = outcome := by
  intro source store lost calculation chosen outcome
  have lostPure : lost.IsIn .pure := ⟨fun _ _ => ⟨_, rfl⟩, trivial, trivial⟩
  have isPure : calculation.IsIn .pure :=
    ⟨fun _ _ => ⟨_, rfl⟩, trivial, trivial, lostPure, ⟨trivial, trivial, lostPure⟩, trivial⟩
  have own : (calculation.evaluate.run true store).outcome = outcome := rfl
  rcases calculation.specialized_comes_to_the_same isPure true store with ⟨settled, frozen⟩
  exact ⟨isPure, (settled chosen).trans own, frozen.trans own⟩

end Calculation

end Deferred
