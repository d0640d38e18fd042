import Deferred.Proofs.Announcements
import Deferred.Proofs.Checked
import Deferred.Proofs.FoldPhases

/-!
# The first overflow

A checked fold is exact until the exact value leaves the range of 64-bit integers for the first
time. There it stops, with a single failure and a single announcement, although all its operands
have run. Nothing that comes later brings the value back, not even a factor of zero.

The proof looks at the calls of the reducing function. What has been accumulated by calls that
succeeded is the exact value reduced to 64 bits, for the fold that wraps around as well
(`Folding.closed_of_accumulates`). If the steps are checked, it is the exact value itself, and
everything on the way did fit (`Folding.fits_of_accumulates`). The first call that fails is then the
first one whose exact result does not fit.
-/

namespace Deferred

open Evaluation (Accumulates Reduces)

theorem Arithmetic.fitsThroughout_concat_iff {step : Int → Int → Int} {start next : Int}
    {values : List Int} :
    FitsThroughout step start (values ++ [next]) ↔
      FitsThroughout step start values ∧ Fits (step (values.foldl step start) next) := by
  simp only [FitsThroughout, List.prefix_concat_iff]
  constructor
  · intro fits
    refine ⟨fun before isPrefix => fits before (Or.inr isPrefix), ?_⟩
    simpa using fits (values ++ [next]) (Or.inl rfl)
  · rintro ⟨earlier, last⟩ before (rfl | isPrefix)
    · simpa using last
    · exact earlier before isPrefix

theorem Evaluation.exists_of_mem_runs {α : Type} {tracing : Bool} {store : Store}
    {evaluations : List (Evaluation α)} {run : Run α}
    (member : run ∈ runs tracing store evaluations) :
    ∃ evaluation ∈ evaluations, ∃ found, run = evaluation.run tracing found := by
  rcases List.mem_iff_getElem?.mp member with ⟨index, here⟩
  rw [getElem?_runs, Option.map_eq_some_iff] at here
  rcases here with ⟨evaluation, inside, rfl⟩
  exact ⟨evaluation, List.mem_of_getElem? inside, _, rfl⟩

namespace Reducer

variable {kind : Kind} {name : Option String} {step : kind.Value → kind.Value → Outcome kind.Value}
  {accumulated next : kind.Value} {tracing : Bool} {store : Store}

theorem outcome_call_pure :
    (((Reducer.pure name step).call accumulated next).run tracing store).outcome =
      step accumulated next :=
  (gives_call_pure name step accumulated next).outcome_eq

theorem run_call_pure_of_ok {reduced : kind.Value} (returns : step accumulated next = .ok reduced) :
    ((Reducer.pure name step).call accumulated next).run tracing store =
      ⟨.ok reduced, store, [.reduced name (.ofValue accumulated) (.ofValue next)]⟩ := by
  simp [call_pure, returns]

theorem run_call_pure_of_error {failure : Failure}
    (fails : step accumulated next = .error failure) :
    ((Reducer.pure name step).call accumulated next).run tracing store =
      ⟨.error failure, store,
        [.reduced name (.ofValue accumulated) (.ofValue next), .raised .reducer failure]⟩ := by
  simp [call_pure, fails, Evaluation.run_bind]

end Reducer

namespace Folding

/-- What the first so many values come to exactly. -/
def partialTotal (folding : Folding) (values : List Int64) (count : Nat) : Int :=
  folding.total ((values.take count).map Int64.toInt)

/-- The calls of the reducing function, one for each value. What has been accumulated before a call
is an exact value reduced to 64 bits. -/
def callsFrom (folding : Folding) (accumulated : Int) : List Int64 → List Entry
  | [] => []
  | next :: rest =>
    .reduced none (.int (.ofInt accumulated)) (.int next) ::
      callsFrom folding (folding.operation.exact accumulated next.toInt) rest

/-- The calls for values that are folded from the start. -/
def calls (folding : Folding) (values : List Int64) : List Entry :=
  folding.callsFrom folding.start.toInt values

/-- The step that overflows first: nothing before it does. -/
def OverflowsFirstAt (folding : Folding) (values : List Int64) (index : Nat) : Prop :=
  (∀ count ≤ index, Arithmetic.Fits (folding.partialTotal values count)) ∧
    ¬Arithmetic.Fits (folding.partialTotal values (index + 1))

instance instDecidableOverflowsFirstAt (folding : Folding) (values : List Int64) (index : Nat) :
    Decidable (folding.OverflowsFirstAt values index) :=
  inferInstanceAs (Decidable
    ((∀ count ≤ index, Arithmetic.Fits (folding.partialTotal values count)) ∧
      ¬Arithmetic.Fits (folding.partialTotal values (index + 1))))

variable {folding : Folding} {values : List Int64}

theorem total_concat (values : List Int) (next : Int) :
    folding.total (values ++ [next]) = folding.operation.exact (folding.total values) next := by
  simp [total]

theorem callsFrom_concat (accumulated : Int) (next : Int64) :
    folding.callsFrom accumulated (values ++ [next]) =
      folding.callsFrom accumulated values ++
        [.reduced none
          (.int (.ofInt ((values.map Int64.toInt).foldl folding.operation.exact accumulated)))
          (.int next)] := by
  induction values generalizing accumulated with
  | nil => rfl
  | cons first rest ih => simp [callsFrom, ih]

theorem calls_concat (next : Int64) :
    folding.calls (values ++ [next]) =
      folding.calls values ++
        [.reduced none (.int (.ofInt (folding.total (values.map Int64.toInt)))) (.int next)] :=
  callsFrom_concat folding.start.toInt next

@[simp]
theorem length_callsFrom (accumulated : Int) :
    (folding.callsFrom accumulated values).length = values.length := by
  induction values generalizing accumulated with
  | nil => rfl
  | cons first rest ih => simp [callsFrom, ih]

theorem event_notMem_callsFrom (accumulated : Int) (event : Event) :
    Entry.event event ∉ folding.callsFrom accumulated values := by
  induction values generalizing accumulated with
  | nil => simp [callsFrom]
  | cons first rest ih => simp [callsFrom, ih]

theorem fitsThroughout_iff :
    folding.FitsThroughout (values.map Int64.toInt) ↔
      ∀ count, Arithmetic.Fits (folding.partialTotal values count) := by
  constructor
  · intro fits count
    exact fits _ ((List.take_prefix count values).map Int64.toInt)
  · intro fits before isPrefix
    rw [List.prefix_iff_eq_take.mp isPrefix, ← List.map_take]
    exact fits before.length

theorem partialTotal_of_length_le {count : Nat} (enough : values.length ≤ count) :
    folding.partialTotal values count = folding.total (values.map Int64.toInt) := by
  rw [partialTotal, List.take_of_length_le enough]

namespace OverflowsFirstAt

variable {index other : Nat}

theorem not_fits (first : folding.OverflowsFirstAt values index) :
    ¬∀ count, Arithmetic.Fits (folding.partialTotal values count) :=
  fun fits => first.2 (fits (index + 1))

theorem eq (first : folding.OverflowsFirstAt values index)
    (second : folding.OverflowsFirstAt values other) : index = other := by
  rcases Nat.lt_trichotomy index other with less | same | greater
  · exact absurd (second.1 (index + 1) less) first.2
  · exact same
  · exact absurd (first.1 (other + 1) greater) second.2

theorem lt_length (first : folding.OverflowsFirstAt values index) : index < values.length := by
  by_contra beyond
  apply first.2
  have before := first.1 values.length (by omega)
  rw [partialTotal_of_length_le le_rfl] at before
  rwa [partialTotal_of_length_le (by omega)]

end OverflowsFirstAt

/-! ## Calls that succeed -/

section

variable {tracing : Bool} {store left : Store} {accumulated : Int64} {journal : List Entry}

theorem eq_wrapping_of_checkedStep {next reduced : Int64}
    (stepped : folding.checkedStep accumulated next = .ok reduced) :
    reduced = folding.operation.wrapping accumulated next := by
  have exact := Arithmetic.checked_eq_ok_iff.mp stepped
  calc
    reduced = .ofInt (folding.operation.exact accumulated.toInt next.toInt) := by
      rw [← exact, Int64.ofInt_toInt]
    _ = folding.operation.wrapping (.ofInt accumulated.toInt) (.ofInt next.toInt) :=
      (folding.operation.wrapping_ofInt _ _).symm
    _ = folding.operation.wrapping accumulated next := by
      simp only [Int64.ofInt_toInt]

theorem closed_of_accumulates {step : Int64 → Int64 → Outcome Int64}
    (wraps : ∀ {accumulated next reduced}, step accumulated next = .ok reduced →
      reduced = folding.operation.wrapping accumulated next)
    (steps : Accumulates (Reducer.pure none step : Reducer .int).call tracing folding.start store
      values accumulated left journal) :
    accumulated = .ofInt (folding.total (values.map Int64.toInt)) ∧ left = store ∧
      journal = folding.calls values := by
  induction steps with
  | nil => exact ⟨(Int64.ofInt_toInt _).symm, rfl, rfl⟩
  | @snoc values accumulated next reduced left journal earlier succeeds ih =>
      rcases ih with ⟨rfl, rfl, rfl⟩
      rw [Reducer.outcome_call_pure] at succeeds
      rw [Reducer.run_call_pure_of_ok succeeds, List.map_append, List.map_singleton, total_concat,
        calls_concat, ← RingOperation.wrapping_ofInt, Int64.ofInt_toInt]
      exact ⟨wraps succeeds, rfl, rfl⟩

theorem fits_of_accumulates
    (steps : Accumulates (Reducer.pure none folding.checkedStep : Reducer .int).call tracing
      folding.start store values accumulated left journal) :
    accumulated.toInt = folding.total (values.map Int64.toInt) ∧
      folding.FitsThroughout (values.map Int64.toInt) := by
  induction steps with
  | nil => exact ⟨rfl, Arithmetic.fitsThroughout_nil_iff.mpr (Arithmetic.fits_toInt _)⟩
  | @snoc values accumulated next reduced left journal earlier succeeds ih =>
      rcases ih with ⟨isExact, fits⟩
      rw [Reducer.outcome_call_pure] at succeeds
      have exact := Arithmetic.checked_eq_ok_iff.mp succeeds
      rw [isExact, ← total_concat] at exact
      rw [List.map_append, List.map_singleton]
      refine ⟨exact, Arithmetic.fitsThroughout_concat_iff.mpr ⟨fits, ?_⟩⟩
      have last := Arithmetic.fits_toInt reduced
      rwa [exact, total_concat] at last

end

/-! ## Folds whose operands succeed -/

section

variable {tracing : Bool} {store : Store} {run : Run Int64}

theorem checked_of_reduces
    (reduces : Reduces (Reducer.pure none folding.checkedStep : Reducer .int).call tracing
      folding.start store values run) :
    ((∀ count, Arithmetic.Fits (folding.partialTotal values count)) ∧
        run = ⟨.ok (.ofInt (folding.total (values.map Int64.toInt))), store,
          folding.calls values⟩) ∨
      ∃ index, folding.OverflowsFirstAt values index ∧
        run = ⟨.error (.overflow folding.overflowing), store,
          folding.calls (values.take (index + 1)) ++
            [.raised .reducer (.overflow folding.overflowing)] ++
            Event.entries tracing (.stepFailed index (.overflow folding.overflowing))⟩ := by
  cases reduces with
  | finished steps =>
      have fits := fitsThroughout_iff.mp (fits_of_accumulates steps).2
      rcases closed_of_accumulates eq_wrapping_of_checkedStep steps with ⟨rfl, rfl, rfl⟩
      exact Or.inl ⟨fits, rfl⟩
  | @stopped before accumulated next left journal failure rest steps fails =>
      right
      rcases fits_of_accumulates steps with ⟨isExact, fits⟩
      rcases closed_of_accumulates eq_wrapping_of_checkedStep steps with ⟨reducedTotal, rfl, rfl⟩
      rw [Reducer.outcome_call_pure] at fails
      rcases Arithmetic.checked_eq_error_iff.mp fails with ⟨unfit, rfl⟩
      have taken : (before ++ next :: rest).take (before.length + 1) = before ++ [next] := by
        rw [List.append_cons]
        exact List.take_left' (by simp)
      refine ⟨before.length, ⟨?_, ?_⟩, ?_⟩
      · intro count short
        rw [partialTotal, List.take_append_of_le_length short]
        exact fitsThroughout_iff.mp fits count
      · rw [partialTotal, taken, List.map_append, List.map_singleton, total_concat, ← isExact]
        exact unfit
      · rw [Reducer.run_call_pure_of_error fails, taken, calls_concat, ← reducedTotal]
        simp [Scalar.ofValue]

theorem wrapping_of_reduces
    (reduces : Reduces (Reducer.pure none fun accumulated next =>
      .ok (folding.operation.wrapping accumulated next) : Reducer .int).call tracing folding.start
      store values run) :
    run = ⟨.ok (.ofInt (folding.total (values.map Int64.toInt))), store, folding.calls values⟩ := by
  cases reduces with
  | finished steps =>
      rcases closed_of_accumulates (fun stepped => (Except.ok.inj stepped).symm) steps with
        ⟨rfl, rfl, rfl⟩
      rfl
  | stopped rest steps fails =>
      rw [Reducer.outcome_call_pure] at fails
      cases fails

end

end Folding

theorem Calculation.reduces_of_succeed {kind : Kind} (reducer : Reducer kind) (start : kind.Value)
    {operands : Operands kind} {values : List kind.Value} {tracing : Bool} {store : Store}
    (succeed : (Evaluation.runs tracing store (operands.toList.map evaluate)).map Run.outcome =
      values.map .ok) :
    let done := Evaluation.runs tracing store (operands.toList.map evaluate)
    ∃ reduced,
      Reduces reducer.call tracing start (Run.storeAfter store done) values reduced ∧
        (reduceLeft reducer (.constant start) operands).evaluate.run tracing store =
          ⟨reduced.outcome, reduced.store, done.flatMap Run.journal ++ reduced.journal⟩ := by
  intro done
  have phases : Evaluation.FoldsInPhases reducer.call (pure start)
      (operands.toList.map evaluate) tracing store _ :=
    Evaluation.foldsInPhases_reduceLeft (pure start) (operands.toList.map evaluate)
  have nothing : Outcome.failures (done.map Run.outcome) = [] := by
    rw [succeed, Outcome.failures_map_ok]
  rcases phases.reduces start rfl nothing with ⟨others, reduced, same, reduces, ran⟩
  have sameValues : others = values :=
    (List.map_inj_right fun _ _ => Except.ok.inj).mp (same.symm.trans succeed)
  subst sameValues
  exact ⟨reduced, reduces, by rw [evaluate_reduceLeft]; exact ran⟩

theorem Calculation.message_eq_of_succeed {kind : Kind} {operands : List (Calculation kind)}
    {values : List kind.Value} {tracing : Bool} {store : Store}
    (succeed : (Evaluation.runs tracing store (operands.map evaluate)).map Run.outcome =
      values.map .ok) {event : Event}
    (announced : Entry.event event ∈
      (Evaluation.runs tracing store (operands.map evaluate)).flatMap Run.journal) :
    event.message = "set variable" := by
  rcases List.mem_flatMap.mp announced with ⟨run, member, noted⟩
  have outcome : run.outcome ∈ values.map .ok := succeed ▸ List.mem_map_of_mem member
  rcases List.mem_map.mp outcome with ⟨value, _, succeeds⟩
  rcases Evaluation.exists_of_mem_runs member with ⟨evaluation, inside, found, rfl⟩
  rcases List.mem_map.mp inside with ⟨operand, _, rfl⟩
  have ledger : Ledger tracing _ _ _ := operand.accounts found
  apply ledger.message_eq_of_nil _ noted
  rw [← succeeds]
  rfl

namespace Folding

/-- What comes of folding operands that all succeed, by the exact values of the first so many of
them. The operands have left a store behind and kept a journal. -/
structure FollowsExactly (folding : Folding) (values : List Int64) (tracing : Bool) (left : Store)
    (noted : List Entry) (checked wrapping : Run Int64) : Prop where
  /-- If everything fits, the checked fold is exact. -/
  exact : (∀ count, Arithmetic.Fits (folding.partialTotal values count)) →
    ∃ value : Int64, value.toInt = folding.partialTotal values values.length ∧
      checked = ⟨.ok value, left, noted ++ folding.calls values⟩
  /-- Otherwise it ends with the call in which something does not fit for the first time, whatever
  comes later. The failure is a single one and is announced once. -/
  overflows : ∀ index, folding.OverflowsFirstAt values index →
    let failure := Failure.overflow folding.overflowing
    let calls := folding.calls (values.take (index + 1))
    calls.length = index + 1 ∧
      checked = ⟨.error failure, left,
        noted ++ calls ++ [.raised .reducer failure] ++
          Event.entries tracing (.stepFailed index failure)⟩
  exhaustive : (∀ count, Arithmetic.Fits (folding.partialTotal values count)) ∨
    ∃ index, folding.OverflowsFirstAt values index
  /-- The fold that wraps around reduces the exact value to 64 bits. -/
  wraps : ∃ value : Int64, value.toInt ≡ folding.partialTotal values values.length [ZMOD 2 ^ 64] ∧
    wrapping = ⟨.ok value, left, noted ++ folding.calls values⟩
  /-- Nothing else is announced, except what operands write. -/
  quiet : ∀ event, Entry.event event ∈ noted ++ folding.calls values →
    event.message = "set variable"

/-- Checked sums and products stop at the first overflow, and sums and products that wrap around go
on. -/
theorem stops_at_first_overflow (folding : Folding) (operands : Operands .int)
    (values : List Int64) (tracing : Bool) (store : Store)
    (succeed : (Evaluation.runs tracing store (operands.toList.map Calculation.evaluate)).map
      Run.outcome = values.map .ok) :
    let done := Evaluation.runs tracing store (operands.toList.map Calculation.evaluate)
    folding.FollowsExactly values tracing (Run.storeAfter store done) (done.flatMap Run.journal)
      ((folding.checked operands).evaluate.run tracing store)
      ((folding.wrapping operands).evaluate.run tracing store) := by
  intro done
  rw [checked_eq, wrapping_eq]
  rcases Calculation.reduces_of_succeed (.pure none folding.checkedStep) folding.start succeed with
    ⟨checked, checkedReduces, checkedRan⟩
  rcases Calculation.reduces_of_succeed (.pure none fun accumulated next =>
    .ok (folding.operation.wrapping accumulated next)) folding.start succeed with
    ⟨wrapping, wrappingReduces, wrappingRan⟩
  rw [checkedRan, wrappingRan, wrapping_of_reduces wrappingReduces]
  have total : folding.partialTotal values values.length =
      folding.total (values.map Int64.toInt) :=
    partialTotal_of_length_le le_rfl
  have wraps : (Int64.ofInt (folding.total (values.map Int64.toInt))).toInt ≡
      folding.partialTotal values values.length [ZMOD 2 ^ 64] := by
    rw [total]
    exact Arithmetic.toInt_ofInt_modEq _
  have quiet : ∀ event, Entry.event event ∈ done.flatMap Run.journal ++ folding.calls values →
      event.message = "set variable" := by
    intro event announced
    rcases List.mem_append.mp announced with noted | called
    · exact Calculation.message_eq_of_succeed succeed noted
    · exact absurd called (event_notMem_callsFrom _ event)
  rcases checked_of_reduces checkedReduces with ⟨fits, rfl⟩ | ⟨index, first, rfl⟩
  · refine ⟨?_, ?_, Or.inl fits, ⟨_, wraps, rfl⟩, quiet⟩
    · intro _
      refine ⟨_, ?_, rfl⟩
      rw [← total]
      exact Arithmetic.toInt_ofInt_of_fits (fits values.length)
    · intro index first
      exact absurd fits first.not_fits
  · refine ⟨?_, ?_, Or.inr ⟨index, first⟩, ⟨_, wraps, rfl⟩, quiet⟩
    · intro fits
      exact absurd fits first.not_fits
    · intro other second
      obtain rfl := first.eq second
      refine ⟨?_, by simp [done]⟩
      have inside := first.lt_length
      rw [calls, length_callsFrom, List.length_take]
      omega

/-- A factor that sets a variable takes the product beyond the range, and a factor of zero comes
later. -/
theorem stops_at_first_overflow_before_zero :
    let target : Variable .bool := ⟨0⟩
    let factors : List (Calculation .int) :=
      [.constant (Int64.maxValue : Int64), .setting target true (.constant (2 : Int64)),
        .constant (0 : Int64)]
    let values : List Int64 := [Int64.maxValue, 2, 0]
    let failure := Failure.overflow "multiplication"
    (Evaluation.runs true .empty (factors.map Calculation.evaluate)).map Run.outcome =
        values.map .ok ∧
      (Calculation.checkedProduct (.ofList factors)).evaluate.run true .empty =
        ⟨.error failure, Store.empty.write target true,
          [.event (.setVariable (.bool true)), .wrote target true,
            .reduced none (.int 1) (.int Int64.maxValue),
            .reduced none (.int Int64.maxValue) (.int 2), .raised .reducer failure,
            .event (.stepFailed 1 failure)]⟩ ∧
      ((Calculation.product (.ofList factors)).evaluate.run true .empty).outcome = .ok 0 := by
  intro target factors values failure
  have succeed : (Evaluation.runs true .empty
      ((Operands.ofList factors).toList.map Calculation.evaluate)).map Run.outcome =
      values.map .ok := by
    rw [Operands.toList_ofList]
    rfl
  have follows := stops_at_first_overflow .product (.ofList factors) values true .empty succeed
  refine ⟨succeed, ?_, ?_⟩
  · exact (follows.overflows 1 (by decide)).2
  · rcases follows.wraps with ⟨value, congruent, ran⟩
    have vanishes : Folding.product.partialTotal values values.length = 0 := by decide
    rw [vanishes] at congruent
    have zero : value = 0 := Int64.toInt_inj.mp
      (Arithmetic.eq_of_modEq ⟨value.le_toInt, value.toInt_lt⟩ (by decide) congruent)
    exact (congrArg Run.outcome ran).trans (congrArg Except.ok zero)

end Folding

end Deferred
