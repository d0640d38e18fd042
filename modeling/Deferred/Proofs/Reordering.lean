import Mathlib.Algebra.Order.BigOperators.Group.List
import Mathlib.Algebra.BigOperators.Ring.List
import Mathlib.Algebra.Order.Ring.Int
import Deferred.Proofs.Checked

/-!
# Checked folds in another order

Addition and multiplication do not care for the order of their operands, but whether a checked fold
overflows does, as it depends on everything on the way. It does not if the sums on the way lie
between zero and the total, because all operands have the same sign, or if no product on the way is
larger in absolute value than the total, because no operand is zero. The exception is a product that
is the least 64-bit integer: its absolute value does not fit.
-/

namespace Deferred

namespace Arithmetic

variable {exact : Int}

theorem fits_iff : Fits exact ↔ -2 ^ 63 ≤ exact ∧ exact < 2 ^ 63 := by
  have least : Int64.minValue.toInt = -2 ^ 63 := rfl
  have greatest : Int64.maxValue.toInt = 2 ^ 63 - 1 := rfl
  rw [Fits, least, greatest]
  omega

theorem Fits.of_mem_interval {least greatest : Int} (leastFits : Fits least)
    (greatestFits : Fits greatest) (lower : least ≤ exact) (upper : exact ≤ greatest) :
    Fits exact :=
  ⟨leastFits.1.trans lower, upper.trans greatestFits.2⟩

theorem checked_of_fits (operation : String) (fits : Fits exact) :
    checked operation exact = .ok (.ofInt exact) := by
  simp [checked, exactly?, fits]

theorem checked_of_not_fits (operation : String) (unfit : ¬Fits exact) :
    checked operation exact = .error (.overflow operation) := by
  simp [checked, exactly?, unfit]

end Arithmetic

namespace Folding

open Arithmetic

variable {values : List Int}

theorem total_sum (values : List Int) : Folding.sum.total values = values.sum :=
  List.sum_eq_foldl.symm

theorem total_product (values : List Int) : Folding.product.total values = values.prod :=
  List.prod_eq_foldl.symm

/-! ## Sums of operands of the same sign -/

theorem fitsThroughout_sum_of_nonneg (nonneg : ∀ value ∈ values, 0 ≤ value)
    (fits : Fits values.sum) : Folding.sum.FitsThroughout values := by
  rintro before ⟨after, rfl⟩
  rw [List.sum_append] at fits
  have first : 0 ≤ before.sum :=
    List.sum_nonneg fun value member => nonneg value (List.mem_append_left after member)
  have rest : 0 ≤ after.sum :=
    List.sum_nonneg fun value member => nonneg value (List.mem_append_right before member)
  have zero : Fits 0 := by decide
  have between := zero.of_mem_interval fits first (by omega)
  rwa [← total_sum] at between

theorem fitsThroughout_sum_of_nonpos (nonpos : ∀ value ∈ values, value ≤ 0)
    (fits : Fits values.sum) : Folding.sum.FitsThroughout values := by
  rintro before ⟨after, rfl⟩
  rw [List.sum_append] at fits
  have first : before.sum ≤ 0 := by
    simpa using List.sum_le_card_nsmul before 0
      fun value member => nonpos value (List.mem_append_left after member)
  have rest : after.sum ≤ 0 := by
    simpa using List.sum_le_card_nsmul after 0
      fun value member => nonpos value (List.mem_append_right before member)
  have zero : Fits 0 := by decide
  have between := fits.of_mem_interval zero (by omega) first
  rwa [← total_sum] at between

/-! ## Products of operands that are not zero -/

theorem natAbs_prod_le_of_prefix {before : List Int} (nonzero : ∀ value ∈ values, value ≠ 0)
    (isPrefix : before <+: values) : before.prod.natAbs ≤ values.prod.natAbs := by
  rcases isPrefix with ⟨after, rfl⟩
  have rest : after.prod ≠ 0 :=
    List.prod_ne_zero fun member => nonzero 0 (List.mem_append_right before member) rfl
  rw [List.prod_append, Int.natAbs_mul]
  exact Nat.le_mul_of_pos_right _ (Int.natAbs_pos.mpr rest)

theorem fitsThroughout_product_of_small (nonzero : ∀ value ∈ values, value ≠ 0)
    (small : |values.prod| < 2 ^ 63) : Folding.product.FitsThroughout values := by
  intro before isPrefix
  have smaller := natAbs_prod_le_of_prefix nonzero isPrefix
  have bounds := abs_lt.mp small
  have fits : Fits before.prod := by
    rw [fits_iff]
    omega
  rwa [← total_product] at fits

theorem fitsThroughout_product_iff_of_least (nonzero : ∀ value ∈ values, value ≠ 0)
    (least : values.prod = -2 ^ 63) :
    Folding.product.FitsThroughout values ↔ ∀ before, before <+: values → before.prod ≠ 2 ^ 63 := by
  constructor
  · intro fits before isPrefix equal
    have fitting : Fits (Folding.product.total before) := fits before isPrefix
    rw [total_product, equal, fits_iff] at fitting
    exact absurd fitting.2 (lt_irrefl _)
  · intro avoids before isPrefix
    have smaller := natAbs_prod_le_of_prefix nonzero isPrefix
    have different := avoids before isPrefix
    have fits : Fits before.prod := by
      rw [fits_iff]
      omega
    rwa [← total_product] at fits

/-! ## What comes of the folds -/

section

variable {folding : Folding} {value : Calculation .int → Int64} {tracing : Bool} {store : Store}
  {operands order : List (Calculation .int)}

/-- The exact values of operands. -/
def exactValues (value : Calculation .int → Int64) (operands : List (Calculation .int)) :
    List Int :=
  operands.map fun operand => (value operand).toInt

/-- What the checked fold of operands comes to. -/
def checkedOutcome (folding : Folding) (tracing : Bool) (store : Store)
    (operands : List (Calculation .int)) : Outcome Int64 :=
  ((folding.checked (.ofList operands)).evaluate.run tracing store).outcome

theorem checkedOutcome_eq
    (each : ∀ operand ∈ operands, operand.evaluate.Gives tracing store (.ok (value operand))) :
    folding.checkedOutcome tracing store operands =
      (operands.map value).foldlM folding.checkedStep folding.start := by
  have folded := (folding.gives_checked each).outcome_eq
  have values : operands.map (fun operand => (.ok (value operand) : Outcome Int64)) =
      (operands.map value).map .ok := by
    simp
  rw [values, Outcome.collected_map_ok, List.map_id'] at folded
  exact folded

theorem checkedOutcome_of_fits
    (each : ∀ operand ∈ operands, operand.evaluate.Gives tracing store (.ok (value operand)))
    (fits : folding.FitsThroughout (exactValues value operands)) :
    folding.checkedOutcome tracing store operands =
      Arithmetic.checked folding.overflowing (folding.total (exactValues value operands)) := by
  have exact : (operands.map value).map Int64.toInt = exactValues value operands := List.map_map
  rw [← exact] at fits ⊢
  rcases (folding.foldlM_checkedStep folding.start (operands.map value)).1 fits with
    ⟨total, folded, isExact⟩
  rw [checkedOutcome_eq each, folded]
  exact (checked_eq_ok_iff.mpr isExact).symm

theorem checkedOutcome_of_not_fits
    (each : ∀ operand ∈ operands, operand.evaluate.Gives tracing store (.ok (value operand)))
    (unfit : ¬folding.FitsThroughout (exactValues value operands)) :
    folding.checkedOutcome tracing store operands = .error (.overflow folding.overflowing) := by
  have exact : (operands.map value).map Int64.toInt = exactValues value operands := List.map_map
  rw [← exact] at unfit
  rw [checkedOutcome_eq each]
  exact (folding.foldlM_checkedStep folding.start (operands.map value)).2 unfit

/-- If it is enough that the total fits, the outcome depends on the total alone. -/
theorem checkedOutcome_eq_checked
    (each : ∀ operand ∈ operands, operand.evaluate.Gives tracing store (.ok (value operand)))
    (enough : Fits (folding.total (exactValues value operands)) →
      folding.FitsThroughout (exactValues value operands)) :
    folding.checkedOutcome tracing store operands =
      Arithmetic.checked folding.overflowing (folding.total (exactValues value operands)) := by
  by_cases fits : folding.FitsThroughout (exactValues value operands)
  · exact checkedOutcome_of_fits each fits
  · rw [checkedOutcome_of_not_fits each fits,
      checked_of_not_fits _ fun total => fits (enough total)]

/-- How checked sums and products depend on the order of their operands. -/
structure Reorders (value : Calculation .int → Int64) (tracing : Bool) (store : Store)
    (operands : List (Calculation .int)) : Prop where
  /-- Sums of operands of the same sign are exact if the total fits, in every order. -/
  sums : (∀ operand ∈ operands, 0 ≤ (value operand).toInt) ∨
      (∀ operand ∈ operands, (value operand).toInt ≤ 0) →
    ((∃ total, Folding.sum.checkedOutcome tracing store operands = .ok total) ↔
        Fits (exactValues value operands).sum) ∧
      ∀ order, order.Perm operands →
        Folding.sum.checkedOutcome tracing store order =
          Arithmetic.checked "addition" (exactValues value operands).sum
  smallProducts : (∀ operand ∈ operands, value operand ≠ 0) →
    |(exactValues value operands).prod| < 2 ^ 63 →
      ∃ total : Int64, total.toInt = (exactValues value operands).prod ∧
        ∀ order, order.Perm operands →
          Folding.product.checkedOutcome tracing store order = .ok total
  largeProducts : (∀ operand ∈ operands, value operand ≠ 0) →
    ¬Fits (exactValues value operands).prod →
      ∀ order, order.Perm operands →
        Folding.product.checkedOutcome tracing store order = .error (.overflow "multiplication")
  /-- The least integer is reached in those orders that do not come across its negation. -/
  leastProducts : (∀ operand ∈ operands, value operand ≠ 0) →
    (exactValues value operands).prod = -2 ^ 63 →
      ∀ order, order.Perm operands →
        ((∀ before, before <+: order → (exactValues value before).prod ≠ 2 ^ 63) →
          Folding.product.checkedOutcome tracing store order = .ok Int64.minValue) ∧
        ((∃ before, before <+: order ∧ (exactValues value before).prod = 2 ^ 63) →
          Folding.product.checkedOutcome tracing store order = .error (.overflow "multiplication"))

variable (perm : order.Perm operands)
include perm

theorem gives_of_perm
    (each : ∀ operand ∈ operands, operand.evaluate.Gives tracing store (.ok (value operand))) :
    ∀ operand ∈ order, operand.evaluate.Gives tracing store (.ok (value operand)) :=
  fun operand member => each operand (perm.mem_iff.mp member)

theorem forall_mem_exactValues_of_perm {property : Int → Prop}
    (holds : ∀ operand ∈ operands, property (value operand).toInt) :
    ∀ exactValue ∈ exactValues value order, property exactValue := by
  intro exactValue member
  rcases List.mem_map.mp member with ⟨operand, inside, rfl⟩
  exact holds operand (perm.mem_iff.mp inside)

theorem sum_of_perm
    (sameSign : (∀ operand ∈ operands, 0 ≤ (value operand).toInt) ∨
      (∀ operand ∈ operands, (value operand).toInt ≤ 0))
    (each : ∀ operand ∈ operands, operand.evaluate.Gives tracing store (.ok (value operand))) :
    Folding.sum.checkedOutcome tracing store order =
      Arithmetic.checked "addition" (exactValues value operands).sum := by
  have exact : (exactValues value order).Perm (exactValues value operands) := perm.map _
  rw [← exact.sum_eq, ← total_sum]
  apply checkedOutcome_eq_checked (gives_of_perm perm each)
  intro fits
  rw [total_sum] at fits
  rcases sameSign with nonneg | nonpos
  · exact fitsThroughout_sum_of_nonneg (forall_mem_exactValues_of_perm perm nonneg) fits
  · exact fitsThroughout_sum_of_nonpos (forall_mem_exactValues_of_perm perm nonpos) fits

variable (nonzero : ∀ operand ∈ operands, value operand ≠ 0)
include nonzero

theorem exactValues_ne_zero : ∀ exactValue ∈ exactValues value order, exactValue ≠ 0 := by
  have exactNonzero : ∀ operand ∈ operands, (value operand).toInt ≠ 0 := by
    intro operand inside zero
    exact nonzero operand inside (Int64.toInt_inj.mp (zero.trans Int64.toInt_zero.symm))
  exact forall_mem_exactValues_of_perm perm exactNonzero

theorem product_of_perm
    (each : ∀ operand ∈ operands, operand.evaluate.Gives tracing store (.ok (value operand)))
    (notLeast : (exactValues value operands).prod ≠ -2 ^ 63) :
    Folding.product.checkedOutcome tracing store order =
      Arithmetic.checked "multiplication" (exactValues value operands).prod := by
  have exact : (exactValues value order).Perm (exactValues value operands) := perm.map _
  rw [← exact.prod_eq] at notLeast ⊢
  rw [← total_product]
  apply checkedOutcome_eq_checked (gives_of_perm perm each)
  intro fits
  rw [total_product, fits_iff] at fits
  apply fitsThroughout_product_of_small (exactValues_ne_zero perm nonzero)
  rw [abs_lt]
  omega

theorem least_product_of_perm
    (each : ∀ operand ∈ operands, operand.evaluate.Gives tracing store (.ok (value operand)))
    (least : (exactValues value operands).prod = -2 ^ 63) :
    ((∀ before, before <+: order → (exactValues value before).prod ≠ 2 ^ 63) →
      Folding.product.checkedOutcome tracing store order = .ok Int64.minValue) ∧
    ((∃ before, before <+: order ∧ (exactValues value before).prod = 2 ^ 63) →
      Folding.product.checkedOutcome tracing store order =
        .error (.overflow "multiplication")) := by
  have exact : (exactValues value order).Perm (exactValues value operands) := perm.map _
  rw [← exact.prod_eq] at least
  have decides := fitsThroughout_product_iff_of_least (exactValues_ne_zero perm nonzero) least
  constructor
  · intro avoids
    have fits : Folding.product.FitsThroughout (exactValues value order) := by
      rw [decides]
      intro before isPrefix
      rw [List.prefix_iff_eq_take.mp isPrefix, exactValues, ← List.map_take]
      exact avoids _ (List.take_prefix _ order)
    rw [checkedOutcome_of_fits (gives_of_perm perm each) fits, total_product, least]
    rfl
  · rintro ⟨before, isPrefix, reached⟩
    apply checkedOutcome_of_not_fits (gives_of_perm perm each)
    intro fits
    exact decides.mp fits _ (isPrefix.map _) reached

end

/-- Checked sums and products can be reordered, apart from products that are the least integer. -/
theorem checked_reorders (operands : List (Calculation .int)) (value : Calculation .int → Int64)
    (tracing : Bool) (store : Store)
    (each : ∀ operand ∈ operands, operand.evaluate.Gives tracing store (.ok (value operand))) :
    Reorders value tracing store operands where
  sums := by
    intro sameSign
    refine ⟨?_, fun order perm => sum_of_perm perm sameSign each⟩
    rw [sum_of_perm (List.Perm.refl operands) sameSign each]
    constructor
    · rintro ⟨total, succeeds⟩
      rw [← checked_eq_ok_iff.mp succeeds]
      exact fits_toInt total
    · intro fits
      exact ⟨_, checked_of_fits "addition" fits⟩
  smallProducts := by
    intro nonzero small
    have bounds := abs_lt.mp small
    have fits : Fits (exactValues value operands).prod := fits_iff.mpr ⟨by omega, by omega⟩
    refine ⟨_, toInt_ofInt_of_fits fits, ?_⟩
    intro order perm
    rw [product_of_perm perm nonzero each (by omega), checked_of_fits _ fits]
  largeProducts := by
    intro nonzero unfit order perm
    have notLeast : (exactValues value operands).prod ≠ -2 ^ 63 := by
      rw [fits_iff] at unfit
      omega
    rw [product_of_perm perm nonzero each notLeast, checked_of_not_fits _ unfit]
  leastProducts := by
    intro nonzero least order perm
    exact least_product_of_perm perm nonzero each least

/-- The factor `-1` decides between an overflow and the least integer by its place. -/
theorem checked_reorders_of_least_product :
    let half : Calculation .int := .constant (4611686018427387904 : Int64)
    let double : Calculation .int := .constant (2 : Int64)
    let opposite : Calculation .int := .constant (-1 : Int64)
    let value := fun operand : Calculation .int =>
      (operand.evaluate.run true .empty).outcome.value?.getD 0
    (∀ operand ∈ [half, double, opposite],
        operand.evaluate.Gives true .empty (.ok (value operand)) ∧ value operand ≠ 0) ∧
      Folding.product.checkedOutcome true .empty [half, double, opposite] =
        .error (.overflow "multiplication") ∧
      Folding.product.checkedOutcome true .empty [opposite, half, double] = .ok Int64.minValue ∧
      Folding.sum.checkedOutcome true .empty [half, half] = .error (.overflow "addition") := by
  intro half double opposite value
  have constant (number : Int64) :
      (Calculation.constant number : Calculation .int).evaluate.Gives true .empty
        (.ok (value (.constant number))) := ⟨rfl, rfl⟩
  have each : ∀ operand ∈ [half, double, opposite],
      operand.evaluate.Gives true .empty (.ok (value operand)) ∧ value operand ≠ 0 := by
    simp only [List.forall_mem_cons]
    exact ⟨⟨constant _, by decide⟩, ⟨constant _, by decide⟩, ⟨constant _, by decide⟩,
      List.forall_mem_nil _⟩
  have nonzero : ∀ operand ∈ [half, double, opposite], value operand ≠ 0 :=
    fun operand member => (each operand member).2
  have products := checked_reorders [half, double, opposite] value true .empty
    fun operand member => (each operand member).1
  have decides := products.leastProducts nonzero (by decide)
  refine ⟨each, ?_, ?_, ?_⟩
  · apply (decides _ (.refl _)).2
    exact ⟨[half, double], List.prefix_append _ _, by decide⟩
  · have perm : ([opposite] ++ [half, double]).Perm ([half, double] ++ [opposite]) :=
      List.perm_append_comm
    apply (decides _ perm).1
    intro before isPrefix
    simp only [List.singleton_append, List.prefix_cons_iff, List.prefix_nil] at isPrefix
    rcases isPrefix with rfl | ⟨_, rfl, rfl | ⟨_, rfl, rfl | ⟨_, rfl, rfl⟩⟩⟩
    all_goals decide
  · have sums := checked_reorders [half, half] value true .empty (by
      simp only [List.forall_mem_cons]
      exact ⟨constant _, constant _, List.forall_mem_nil _⟩)
    rw [(sums.sums (Or.inl (by decide))).2 _ (.refl _)]
    exact checked_of_not_fits "addition" (by decide)

end Folding

end Deferred
