import Mathlib.Logic.Relation
import Deferred.Proofs.Contributions
import Deferred.Proofs.Pairs
import Deferred.Proofs.Traversal

/-!
# Identities between graphs

Some calculations can be written in different ways: negations cancel out, a condition can be negated
if the branches are exchanged, a negation or a sign can be taken before or after a branch is
selected, and so on. Both sides of such an identity do the same, whatever the calculations in it do:
they come to the same value or the same failure, leave the same store behind, and run what is
supplied from outside in the same order, each time in the same store. This is because combinators
with one operand pass a failure on as it is, and combinators with two operands put failures together
once, so that no identity may move one kind of combinator across the other.

Diagnostic events and calls of pure functions differ, and are not looked at. Up to them, every
combinator is a composition of a few monadic operations, and the identities follow from the laws of
the monad and from how `Evaluation.both` goes together with functions on values. Congruence then
takes them to any place in a graph.
-/

namespace Deferred

variable {kind : Kind} {α β : Type}

/-- Whether an entry notes that a function was called. -/
def Entry.isCall : Entry → Bool
  | .applied _ _ _ => true
  | .reduced _ _ _ => true
  | _ => false

/-- The view in which everything matters except events and calls of functions. -/
def View.effects : View where
  store _ := True
  entry entry := !entry.isEvent && !entry.isCall

/-! ## Combinators up to events and calls -/

namespace Evaluation

theorem effects_refl (evaluation : Evaluation α) : evaluation.Matches .effects evaluation :=
  .refl fun _ _ _ => trivial

theorem effects_of_eq {own other : Evaluation α} (same : own = other) :
    own.Matches .effects other :=
  same ▸ effects_refl own

theorem effects_reportingFailure (evaluation : Evaluation α) (event : Failure → Event) :
    (evaluation.reportingFailure event).Matches .effects evaluation := by
  intro tracing store _
  have silent : ∀ event, View.effects.entry (.event event) = false := fun _ => rfl
  rw [run_reportingFailure_eq]
  refine ⟨rfl, rfl, ?_, trivial⟩
  simp only [List.filter_append, Event.filter_ofOutcome_eq_nil silent, List.append_nil]

theorem effects_negate (operand : Evaluation Bool) :
    operand.negate.Matches .effects (Bool.not <$> operand) :=
  (effects_reportingFailure operand _).map _

theorem effects_signum (operand : Evaluation Int64) :
    operand.signum.Matches .effects (Arithmetic.sign <$> operand) :=
  (effects_reportingFailure operand _).map _

theorem effects_conditional (condition : Evaluation Bool) (ifTrue ifFalse : Evaluation α) :
    (condition.conditional ifTrue ifFalse).Matches .effects
      (condition >>= fun selected => if selected then ifTrue else ifFalse) := by
  apply (effects_reportingFailure condition _).bind
  intro selected
  exact effects_refl _

theorem effects_binary (name : Option String) (apply : kind.Value → kind.Value → kind.Value)
    (lhs rhs : Evaluation kind.Value) :
    (binary (Operation.pure name apply).call lhs rhs).Matches .effects
      ((fun values => apply values.1 values.2) <$> both lhs rhs) := by
  rw [← bind_pure_comp]
  apply (effects_refl (both lhs rhs)).bind
  intro values tracing store _
  exact ⟨rfl, rfl, rfl, trivial⟩

theorem both_map {α' β' : Type} (first : α → α') (second : β → β') (lhs : Evaluation α)
    (rhs : Evaluation β) :
    both (first <$> lhs) (second <$> rhs) = Prod.map first second <$> both lhs rhs := by
  ext tracing store
  simp only [run_both, run_map, Outcome.failure?_map]
  cases (lhs.run tracing store).outcome <;>
    cases (rhs.run tracing (lhs.run tracing store).store).outcome <;> rfl

theorem effects_both_negate (function : Bool × Bool → β) (lhs rhs : Evaluation Bool) :
    (function <$> both lhs.negate rhs.negate).Matches .effects
      ((fun values => function (!values.1, !values.2)) <$> both lhs rhs) := by
  apply (((effects_negate lhs).both (effects_negate rhs)).map function).trans
  rw [both_map, ← comp_map]
  exact effects_refl _

/-! ## Identities between evaluations -/

theorem negate_negate (operand : Evaluation Bool) :
    operand.negate.negate.Matches .effects operand := by
  apply (effects_negate _).trans
  apply ((effects_negate operand).map Bool.not).trans
  apply effects_of_eq
  simp

theorem signum_signum (operand : Evaluation Int64) :
    operand.signum.signum.Matches .effects operand.signum := by
  have idempotent (value : Int64) : Arithmetic.sign (Arithmetic.sign value) =
      Arithmetic.sign value := by
    unfold Arithmetic.sign
    split
    · rfl
    · split <;> rfl
  apply (effects_signum _).trans
  apply ((effects_signum operand).map Arithmetic.sign).trans
  apply Matches.trans _ (effects_signum operand).symm
  apply effects_of_eq
  simp [idempotent]

theorem conditional_negate (condition : Evaluation Bool) (ifTrue ifFalse : Evaluation α) :
    (condition.negate.conditional ifTrue ifFalse).Matches .effects
      (condition.conditional ifFalse ifTrue) := by
  apply (effects_conditional _ _ _).trans
  apply ((effects_negate condition).bind fun _ => effects_refl _).trans
  apply Matches.trans _ (effects_conditional _ _ _).symm
  rw [bind_map_left]
  apply (effects_refl condition).bind
  intro selected
  cases selected <;> exact effects_refl _

/-- A function of the value can be taken before or after a branch is selected. -/
theorem conditional_of_map {function : α → β} {around : Evaluation α → Evaluation β}
    (isMap : ∀ operand, (around operand).Matches .effects (function <$> operand))
    (condition : Evaluation Bool) (ifTrue ifFalse : Evaluation α) :
    (around (condition.conditional ifTrue ifFalse)).Matches .effects
      (condition.conditional (around ifTrue) (around ifFalse)) := by
  apply (isMap _).trans
  apply ((effects_conditional condition ifTrue ifFalse).map function).trans
  apply Matches.trans _ (effects_conditional _ _ _).symm
  rw [map_bind]
  apply (effects_refl condition).bind
  intro selected
  cases selected with
  | true => exact (isMap ifTrue).symm
  | false => exact (isMap ifFalse).symm

theorem conditional_pure_true (ifTrue ifFalse : Evaluation α) :
    ((pure true : Evaluation Bool).conditional ifTrue ifFalse).Matches .effects ifTrue := by
  apply (effects_conditional _ _ _).trans
  rw [pure_bind]
  exact effects_refl ifTrue

theorem reduceLeft_nil (reduce : α → α → Evaluation α) (initial : Evaluation α) :
    (reduceLeft reduce initial []).Matches .effects initial := by
  have nothing : reduceLeft reduce initial [] =
      initial.reportingFailure fun _ => .initialFailed 0 := by
    simp [reduceLeft, all]
  rw [nothing]
  exact effects_reportingFailure initial _

theorem equals_negate (lhs rhs : Evaluation Bool) :
    (lhs.negate.equals rhs.negate).Matches .effects (lhs.equals rhs) := by
  apply (effects_both_negate _ lhs rhs).trans
  simp only [Bool.not_inj_iff]
  exact effects_refl _

theorem negate_binary_xor (name : Option String) (lhs rhs : Evaluation Kind.bool.Value) :
    (negate (binary
      (Operation.pure name fun left right : Bool => left ^^ right : Operation .bool).call
      lhs rhs)).Matches .effects (equals lhs rhs) := by
  apply (effects_negate _).trans
  apply ((effects_binary name _ lhs rhs).map Bool.not).trans
  apply effects_of_eq
  rw [← comp_map]
  congr 1
  funext values
  rcases values with ⟨left, right⟩
  cases left <;> cases right <;> rfl

theorem negate_binary (name dualName : Option String) {apply dual : Bool → Bool → Bool}
    (isDual : ∀ left right, dual left right = !apply (!left) (!right))
    (lhs rhs : Evaluation Kind.bool.Value) :
    (negate (binary (Operation.pure name apply : Operation .bool).call lhs rhs)).Matches .effects
      (binary (Operation.pure dualName dual : Operation .bool).call (negate lhs) (negate rhs)) := by
  apply (effects_negate _).trans
  apply ((effects_binary _ _ lhs rhs).map Bool.not).trans
  apply Matches.trans _ (@effects_binary .bool dualName dual (negate lhs) (negate rhs)).symm
  apply Matches.trans _ (effects_both_negate _ lhs rhs).symm
  simp only [isDual, Bool.not_not, Functor.map_map]
  exact effects_refl _

end Evaluation

/-! ## The identities -/

/-- The two sides of an identity. -/
inductive Identity : Rule
  | notNot (operand : Calculation .bool) : Identity .bool operand.not.not operand
  | signumSignum (operand : Calculation .int) :
    Identity .int operand.signum.signum operand.signum
  | conditionalNot {kind : Kind} (condition : Calculation .bool)
    (ifTrue ifFalse : Calculation kind) :
    Identity kind (.conditional condition.not ifTrue ifFalse)
      (.conditional condition ifFalse ifTrue)
  | notConditional (condition ifTrue ifFalse : Calculation .bool) :
    Identity .bool (Calculation.conditional condition ifTrue ifFalse).not
      (.conditional condition ifTrue.not ifFalse.not)
  | signumConditional (condition : Calculation .bool) (ifTrue ifFalse : Calculation .int) :
    Identity .int (Calculation.conditional condition ifTrue ifFalse).signum
      (.conditional condition ifTrue.signum ifFalse.signum)
  | conditionalTrue {kind : Kind} (ifTrue ifFalse : Calculation kind) :
    Identity kind (.conditional (.constant true) ifTrue ifFalse) ifTrue
  | reduceLeftNil {kind : Kind} (reducer : Reducer kind) (initial : Calculation kind) :
    Identity kind (.reduceLeft reducer initial .nil) initial
  | equalsNot (lhs rhs : Calculation .bool) :
    Identity .bool (.equals lhs.not rhs.not) (.equals lhs rhs)
  | equalsXor (name : Option String) (lhs rhs : Calculation .bool) :
    Identity .bool (.equals lhs rhs)
      (Calculation.binary (.pure name fun left right : Bool => left ^^ right) lhs rhs).not
  | notBinary (name dualName : Option String) {apply dual : Bool → Bool → Bool}
    (isDual : ∀ left right, dual left right = !apply (!left) (!right))
    (lhs rhs : Calculation .bool) :
    Identity .bool (Calculation.binary (.pure name apply) lhs rhs).not
      (.binary (.pure dualName dual) lhs.not rhs.not)

/-- A rule that is used from left to right and from right to left. -/
def Rule.eitherWay (rule : Rule) : Rule :=
  fun kind own other => rule kind own other ∨ rule kind other own

theorem Identity.matches {own other : Calculation kind} (identity : Identity kind own other) :
    own.evaluate.Matches .effects other.evaluate := by
  cases identity with
  | notNot operand => exact Evaluation.negate_negate _
  | signumSignum operand => exact Evaluation.signum_signum _
  | conditionalNot condition ifTrue ifFalse => exact Evaluation.conditional_negate _ _ _
  | notConditional condition ifTrue ifFalse =>
      exact Evaluation.conditional_of_map Evaluation.effects_negate _ _ _
  | signumConditional condition ifTrue ifFalse =>
      exact Evaluation.conditional_of_map Evaluation.effects_signum _ _ _
  | conditionalTrue ifTrue ifFalse => exact Evaluation.conditional_pure_true _ _
  | reduceLeftNil reducer initial =>
      rw [Calculation.evaluate_reduceLeft]
      exact Evaluation.reduceLeft_nil reducer.call _
  | equalsNot lhs rhs =>
      rw [Calculation.evaluate_equals, Calculation.evaluate_equals]
      exact Evaluation.equals_negate _ _
  | equalsXor name lhs rhs =>
      rw [Calculation.evaluate_equals, Calculation.evaluate_not, Calculation.evaluate_binary]
      exact (Evaluation.negate_binary_xor name _ _).symm
  | notBinary name dualName isDual lhs rhs =>
      rw [Calculation.evaluate_not, Calculation.evaluate_binary, Calculation.evaluate_binary]
      exact Evaluation.negate_binary name dualName isDual _ _

theorem Identity.contributions_eq {own other : Calculation kind}
    (identity : Identity kind own other) (tracing : Bool) (store : Store) :
    other.contributions tracing store = own.contributions tracing store := by
  have negatedStore (operand : Calculation .bool) :
      (operand.not.evaluate.run tracing store).store = (operand.evaluate.run tracing store).store :=
    (Evaluation.effects_negate operand.evaluate tracing store trivial).store_eq.symm
  cases identity with
  | notNot operand => simp only [Calculation.contributions_not]
  | signumSignum operand => simp only [Calculation.contributions_signum]
  | conditionalNot condition ifTrue ifFalse =>
      have negated : (condition.not.evaluate.run tracing store).outcome =
          Except.map Bool.not (condition.evaluate.run tracing store).outcome :=
        (Evaluation.effects_negate condition.evaluate tracing store trivial).outcome_eq.symm
      simp only [Calculation.contributions_conditional, Calculation.contributions_not, negated,
        negatedStore]
      cases (condition.evaluate.run tracing store).outcome with
      | error failure => rfl
      | ok selected => cases selected <;> rfl
  | notConditional condition ifTrue ifFalse =>
      simp only [Calculation.contributions_conditional, Calculation.contributions_not]
  | signumConditional condition ifTrue ifFalse =>
      simp only [Calculation.contributions_conditional, Calculation.contributions_signum]
  | conditionalTrue ifTrue ifFalse =>
      rw [Calculation.contributions_conditional, Calculation.contributions_constant]
      rfl
  | reduceLeftNil reducer other =>
      simp only [Calculation.contributions_reduceLeft, Operands.toList]
      cases (other.evaluate.run tracing store).outcome with
      | error failure => exact (List.append_nil _).symm
      | ok start => exact (List.append_nil _).symm
  | equalsNot lhs rhs =>
      simp only [Calculation.contributions_equals, Calculation.contributions_not, negatedStore]
  | equalsXor name lhs rhs =>
      simp only [Calculation.contributions_equals, Calculation.contributions_not,
        Calculation.contributions_binary_pure]
  | notBinary name dualName isDual lhs rhs =>
      simp only [Calculation.contributions_not, Calculation.contributions_binary_pure, negatedStore]

/-! ## Anywhere in a graph -/

/-- Two graphs do the same in every store, and nothing outside tells them apart. -/
structure Calculation.Agrees (own other : Calculation kind) : Prop where
  evaluate_matches : own.evaluate.Matches .effects other.evaluate
  contributions_eq : ∀ tracing store,
    other.contributions tracing store = own.contributions tracing store

namespace Calculation.Agrees

theorem refl (calculation : Calculation kind) : calculation.Agrees calculation :=
  ⟨Evaluation.effects_refl _, fun _ _ => rfl⟩

theorem symm {own other : Calculation kind} (agrees : own.Agrees other) : other.Agrees own :=
  ⟨agrees.evaluate_matches.symm, fun tracing store => (agrees.contributions_eq tracing store).symm⟩

theorem trans {first second third : Calculation kind} (agrees : first.Agrees second)
    (further : second.Agrees third) : first.Agrees third :=
  ⟨agrees.evaluate_matches.trans further.evaluate_matches, fun tracing store =>
    (further.contributions_eq tracing store).trans (agrees.contributions_eq tracing store)⟩

end Calculation.Agrees

theorem Identity.agrees {own other : Calculation kind} (identity : Identity kind own other) :
    own.Agrees other :=
  ⟨identity.matches, identity.contributions_eq⟩

/-- Every use of a rule leads to a graph that does the same. -/
def Rule.IsSound (rule : Rule) : Prop :=
  ∀ (kind : Kind) (own other : Calculation kind), rule kind own other → own.Agrees other

theorem Rule.IsSound.eitherWay {rule : Rule} (sound : rule.IsSound) : rule.eitherWay.IsSound := by
  intro kind own other applied
  rcases applied with forwards | backwards
  · exact sound kind own other forwards
  · exact (sound kind other own backwards).symm

theorem Fragment.respects_staying_effects : Fragment.all.Respects View.effects.staying := by
  constructor <;> intros <;> exact fun _ _ _ => trivial

theorem Calculation.Rewritten.evaluate_matches {rule : Rule} (sound : rule.IsSound)
    {own other : Calculation kind} (rewritten : own.Rewritten rule other) :
    own.evaluate.Matches .effects other.evaluate := by
  apply rewritten.matches Fragment.respects_staying_effects _ own.isIn_all
  intro kind own other _ applied
  exact (sound kind own other applied).evaluate_matches

theorem Operands.Rewritten.evaluate_matches {rule : Rule} (sound : rule.IsSound)
    {own other : Operands kind} (rewritten : own.Rewritten rule other) :
    List.Forall₂ (Evaluation.Matches .effects) (own.toList.map Calculation.evaluate)
      (other.toList.map Calculation.evaluate) := by
  apply rewritten.matches Fragment.respects_staying_effects _ own.isIn_all
  intro kind own other _ applied
  exact (sound kind own other applied).evaluate_matches

mutual

theorem Calculation.Rewritten.contributions_eq {rule : Rule} (sound : rule.IsSound)
    (tracing : Bool) :
    {kind : Kind} → {own other : Calculation kind} → own.Rewritten rule other → (store : Store) →
    other.contributions tracing store = own.contributions tracing store
  | _, _, _, .rule applied, store => (sound _ _ _ applied).contributions_eq tracing store
  | _, _, _, .constant _, _ => rfl
  | _, _, _, .input _, _ => rfl
  | _, _, _, .failing _, _ => rfl
  | _, _, _, .supplied _, _ => rfl
  | _, _, _, .preceded procedure inside, store => by
      simp only [Calculation.contributions_preceded, inside.contributions_eq sound]
  | _, _, _, .not inside, store => by
      simp only [Calculation.contributions_not, inside.contributions_eq sound]
  | _, _, _, .signum inside, store => by
      simp only [Calculation.contributions_signum, inside.contributions_eq sound]
  | _, _, _, .equals left right, store => by
      have first := left.evaluate_matches sound tracing store trivial
      simp only [Calculation.contributions_equals, left.contributions_eq sound,
        right.contributions_eq sound, first.store_eq]
  | _, _, _, .conditional selecting whenTrue whenFalse, store => by
      have selected := selecting.evaluate_matches sound tracing store trivial
      simp only [Calculation.contributions_conditional, selecting.contributions_eq sound,
        whenTrue.contributions_eq sound, whenFalse.contributions_eq sound, selected.outcome_eq,
        selected.store_eq]
  | _, _, _, .binary _ left right, store => by
      have first := left.evaluate_matches sound tracing store trivial
      have second (found : Store) := right.evaluate_matches sound tracing found trivial
      simp only [Calculation.contributions_binary, left.contributions_eq sound,
        right.contributions_eq sound, first.outcome_eq, first.store_eq, (second _).outcome_eq,
        (second _).store_eq]
  | _, _, _, .reduceLeft _ starting each, store => by
      have begun := starting.evaluate_matches sound tracing store trivial
      have collected (found : Store) :=
        Evaluation.Matches.all (each.evaluate_matches sound) tracing found trivial
      simp only [Calculation.contributions_reduceLeft, starting.contributions_eq sound,
        each.contributions_eq sound, begun.outcome_eq, begun.store_eq,
        (collected _).outcome_eq, (collected _).store_eq]

theorem Operands.Rewritten.contributions_eq {rule : Rule} (sound : rule.IsSound)
    (tracing : Bool) :
    {kind : Kind} → {own other : Operands kind} → own.Rewritten rule other → (store : Store) →
    Calculation.operandContributions tracing store other.toList =
      Calculation.operandContributions tracing store own.toList
  | _, _, _, .nil, _ => rfl
  | _, _, _, .cons first rest, store => by
      have begun := first.evaluate_matches sound tracing store trivial
      simp only [Operands.toList, Calculation.operandContributions, first.contributions_eq sound,
        rest.contributions_eq sound, begun.store_eq]

end

namespace Calculation

theorem Rewritten.agrees {rule : Rule} (sound : rule.IsSound) {own other : Calculation kind}
    (rewritten : own.Rewritten rule other) : own.Agrees other :=
  ⟨rewritten.evaluate_matches sound, fun tracing => rewritten.contributions_eq sound tracing⟩

/-- The identities hold anywhere in a graph, in either direction, and however many of them are used
one after the other. -/
theorem identities_hold_anywhere {own other : Calculation kind}
    (steps : Relation.ReflTransGen (Rewritten Identity.eitherWay) own other) :
    own.Agrees other := by
  have sound : Rule.IsSound Identity := fun _ _ _ identity => identity.agrees
  induction steps with
  | refl => exact .refl own
  | tail _ step ih => exact ih.trans (step.agrees sound.eitherWay)

/-- The branches of a condition are exchanged inside of a comparison, and then its other operand
becomes a branch. -/
theorem identities_hold_anywhere_of_two_steps :
    let flag : Calculation .bool := .input ⟨0⟩
    let lost : Calculation .bool := .failing (.message "lost")
    let script : Procedure (Outcome Bool) := .script "leaf" ⟨0⟩ (.ok true) [.ok false]
    let leaf : Calculation .bool := .supplied script
    let own : Calculation .bool := .equals (conditional flag.not leaf lost).not flag
    let other : Calculation .bool :=
      .equals (conditional flag lost leaf).not (conditional (.constant true) flag lost)
    Relation.ReflTransGen (Rewritten Identity.eitherWay) own other ∧
    (other.evaluate.run true .empty).outcome = .ok true ∧
    other.contributions true .empty = [@Contribution.supplied .bool script .empty] := by
  intro flag lost script leaf own other
  have exchanged : Rewritten Identity.eitherWay own
      (.equals (conditional flag lost leaf).not flag) :=
    .equals (.not (.rule (.inl (.conditionalNot flag leaf lost)))) (.input _)
  have selected : Rewritten Identity.eitherWay (.equals (conditional flag lost leaf).not flag)
      other :=
    .equals (.not (.conditional (.input _) (.failing _) (.supplied _)))
      (.rule (.inr (.conditionalTrue flag lost)))
  have steps : Relation.ReflTransGen (Rewritten Identity.eitherWay) own other :=
    .tail (.single exchanged) selected
  have agrees := identities_hold_anywhere steps
  refine ⟨steps, ?_, ?_⟩
  · rw [(agrees.evaluate_matches true .empty trivial).outcome_eq]
    rfl
  · simp only [agrees.contributions_eq, own, contributions_equals, contributions_not,
      contributions_conditional, flag, contributions_input, leaf, contributions_supplied]
    rfl

end Calculation

end Deferred
