import Deferred.Proofs.Cutting
import Deferred.Proofs.FailureKinds

/-!
# What the text of a failure tells

The text of an aggregate announces itself and then joins the texts of its causes, which may be
aggregates themselves. So the announcements pile up in front of the first leaf of an aggregate, and
everything else in the text is leaves and separators. If the texts of the leaves have no separator
in them and do not begin with an announcement, the text can be cut at the separators, and without
the announcements the pieces are the texts of all leaves from left to right.

Texts are not escaped, so a text alone does not say whether it is that of an aggregate. A message,
or an error from outside, may have a text that begins with the announcement, and then it is also the
text of an aggregate. There is no other way to take one for the other.
-/

namespace Deferred

/-- The text of a failure behind an announcement for each aggregate that begins with it. -/
def Nested.announced (nested : Nested) : String :=
  String.join (List.replicate nested.depth "multiple errors: ") ++ nested.failure.render

namespace Nested

theorem announced_zero (failure : Failure) : (⟨0, failure⟩ : Nested).announced = failure.render :=
  String.empty_append

theorem announced_succ (depth : Nat) (failure : Failure) :
    (⟨depth + 1, failure⟩ : Nested).announced =
      "multiple errors: " ++ (⟨depth, failure⟩ : Nested).announced := by
  simp only [announced, List.replicate_succ, String.join_cons, String.append_assoc]

theorem announced_beneath (nested : Nested) :
    (nested.beneath 1).announced = "multiple errors: " ++ nested.announced := by
  rw [beneath, Nat.add_comm, announced_succ]

/-- An announcement in front of joined texts is one in front of the first of them. -/
theorem intercalate_modifyHead {openings : List Nested} (nonempty : openings ≠ []) :
    "; ".intercalate ((openings.modifyHead (.beneath 1)).map announced) =
      "multiple errors: " ++ "; ".intercalate (openings.map announced) := by
  rcases List.exists_cons_of_ne_nil nonempty with ⟨first, rest, rfl⟩
  rw [List.modifyHead_cons, List.map_cons, List.map_cons, announced_beneath,
    String.intercalate_cons_append]

/-- An announcement does not bring in a separator. -/
theorem contains_announced {nested : Nested} (free : nested.failure.render.contains "; " = false) :
    nested.announced.contains "; " = false := by
  rcases nested with ⟨depth, failure⟩
  have fresh : ';' ∉ "multiple errors: ".toList := by decide
  induction depth with
  | zero => rwa [announced_zero]
  | succ depth ih =>
      rw [announced_succ]
      exact (Text.contains_append rfl fresh).trans (ih free)

end Nested

namespace Failure

variable {failure : Failure} {causes : List Failure}

/-! ## The leaves in the text -/

mutual

/-- The leaves of a failure from left to right, each with the number of aggregates that begin with
it. -/
def openings : Failure → List Nested
  | .aggregate causes => (openingsOfAll causes).modifyHead (.beneath 1)
  | .message text => [⟨0, .message text⟩]
  | .external text => [⟨0, .external text⟩]
  | .overflow operation => [⟨0, .overflow operation⟩]

/-- The leaves of several failures, in order, each with the number of aggregates that begin with
it. -/
def openingsOfAll : List Failure → List Nested
  | [] => []
  | failure :: rest => failure.openings ++ openingsOfAll rest

end

theorem openingsOfAll_eq_flatMap (failures : List Failure) :
    openingsOfAll failures = failures.flatMap openings := by
  induction failures with
  | nil => rfl
  | cons failure rest ih => simp [openingsOfAll, ih]

theorem openings_aggregate (causes : List Failure) :
    (aggregate causes).openings = (causes.flatMap openings).modifyHead (.beneath 1) := by
  rw [openings, openingsOfAll_eq_flatMap]

theorem openings_of_not_isAggregate (single : failure.isAggregate = false) :
    failure.openings = [⟨0, failure⟩] := by
  cases failure with
  | message text => rfl
  | external text => rfl
  | overflow operation => rfl
  | aggregate causes => cases single

/-- No aggregate in a failure, at any depth, is empty. -/
def NoEmptyAggregate (failure : Failure) : Prop :=
  ∀ causes, (aggregate causes).IsWithin failure → causes ≠ []

theorem IsBuilt.noEmptyAggregate (built : failure.IsBuilt) : failure.NoEmptyAggregate := by
  intro causes nested
  have filled := (built.within nested).rebuilds.1
  exact List.isEmpty_eq_false_iff.mp filled

namespace NoEmptyAggregate

theorem of_mem {cause : Failure} (filled : (aggregate causes).NoEmptyAggregate)
    (member : cause ∈ causes) : cause.NoEmptyAggregate :=
  fun inner nested => filled inner (.cause member nested)

/-- To show something of all failures without empty aggregates, show it of single failures, and of
aggregates whose causes have it. -/
@[elab_as_elim]
theorem induct {motive : (failure : Failure) → failure.NoEmptyAggregate → Prop}
    (single : ∀ (failure : Failure) (filled : failure.NoEmptyAggregate),
      failure.isAggregate = false → motive failure filled)
    (whole : ∀ (causes : List Failure) (filled : (aggregate causes).NoEmptyAggregate), causes ≠ [] →
      (∀ (cause : Failure) (member : cause ∈ causes), motive cause (filled.of_mem member)) →
      motive (aggregate causes) filled) :
    ∀ (failure : Failure) (filled : failure.NoEmptyAggregate), motive failure filled
  | .message _, filled => single _ filled rfl
  | .external _, filled => single _ filled rfl
  | .overflow _, filled => single _ filled rfl
  | .aggregate causes, filled =>
    whole causes filled (filled causes .here) fun cause member =>
      induct single whole cause (filled.of_mem member)

/-- There is a leaf in every failure. -/
theorem openings_ne_nil (filled : failure.NoEmptyAggregate) : failure.openings ≠ [] := by
  induction failure, filled using induct with
  | single failure _ single => simp [openings_of_not_isAggregate single]
  | whole causes filled nonempty ih =>
      rcases List.exists_mem_of_ne_nil causes nonempty with ⟨cause, member⟩
      have opened : causes.flatMap openings ≠ [] := by
        intro empty
        exact ih cause member (List.flatMap_eq_nil_iff.mp empty cause member)
      simpa [openings_aggregate] using opened

/-- The leaves are the same, and in the same order. -/
theorem map_failure_openings (filled : failure.NoEmptyAggregate) :
    failure.openings.map Nested.failure = failure.leaves.map Nested.failure := by
  induction failure, filled using induct with
  | single failure _ single =>
      rw [openings_of_not_isAggregate single, leaves_of_not_isAggregate single]
  | whole causes filled _ ih =>
      have same : (causes.flatMap openings).map Nested.failure =
          (causes.flatMap leaves).map Nested.failure := by
        rw [List.map_flatMap, List.map_flatMap, List.flatMap_def, List.flatMap_def,
          List.map_congr_left ih]
      rw [openings_aggregate, leaves_aggregate, List.map_map]
      -- One aggregate more, counted for the first leaf or for all of them, changes no leaf.
      exact Eq.trans (by cases causes.flatMap openings <;> rfl) same

/-- The text of a failure is its leaves with all announcements, joined with the separator. -/
theorem render_eq (filled : failure.NoEmptyAggregate) :
    failure.render = "; ".intercalate (failure.openings.map Nested.announced) := by
  induction failure, filled using induct with
  | single failure _ single =>
      rw [openings_of_not_isAggregate single, List.map_singleton, String.intercalate_singleton,
        Nested.announced_zero]
  | whole causes filled nonempty ih =>
      have leavesOfEach : ∀ cause ∈ causes, cause.openings.map Nested.announced ≠ [] := by
        intro cause member empty
        exact (filled.of_mem member).openings_ne_nil (List.map_eq_nil_iff.mp empty)
      have opened : causes.flatMap openings ≠ [] := by
        intro empty
        exact filled.openings_ne_nil (by rw [openings_aggregate, empty]; rfl)
      calc (aggregate causes).render
          = "multiple errors: " ++ "; ".intercalate (causes.map render) := render_aggregate causes
        _ = "multiple errors: " ++ "; ".intercalate (causes.map fun cause =>
              "; ".intercalate (cause.openings.map Nested.announced)) := by
            rw [List.map_congr_left ih]
        _ = "multiple errors: " ++
              "; ".intercalate ((causes.flatMap openings).map Nested.announced) := by
            rw [List.map_flatMap, Text.intercalate_flatMap leavesOfEach]
        _ = "; ".intercalate ((aggregate causes).openings.map Nested.announced) := by
            rw [openings_aggregate, Nested.intercalate_modifyHead opened]

theorem exists_leaf (filled : failure.NoEmptyAggregate) {opening : Nested}
    (opens : opening ∈ failure.openings) :
    ∃ leaf ∈ failure.leaves, leaf.failure = opening.failure := by
  have inside : opening.failure ∈ failure.openings.map Nested.failure := List.mem_map_of_mem opens
  rw [filled.map_failure_openings] at inside
  exact List.mem_map.mp inside

/-- Cut at the separators, the text of a failure is its leaves with all announcements. -/
theorem split_render (filled : failure.NoEmptyAggregate)
    (free : ∀ leaf ∈ failure.leaves, leaf.failure.render.contains "; " = false) :
    (failure.render.split "; ").toList.map String.Slice.copy =
      failure.openings.map Nested.announced := by
  have pieces : ∀ piece ∈ failure.openings.map Nested.announced, piece.contains "; " = false := by
    rw [List.forall_mem_map]
    intro opening opens
    rcases filled.exists_leaf opens with ⟨leaf, among, same⟩
    exact opening.contains_announced (same ▸ free leaf among)
  have nonempty : failure.openings.map Nested.announced ≠ [] := by
    simpa using filled.openings_ne_nil
  have ends : "; " = String.push ";" ' ' := rfl
  have fresh : ' ' ∉ ";".toList := by decide
  rw [filled.render_eq]
  exact Text.split_intercalate ends fresh pieces nonempty

end NoEmptyAggregate

/-- Cutting the text of a failure and dropping all announcements from the pieces gives the texts of
its leaves from left to right, whatever else these texts are, if they have no separator in them and
do not begin with an announcement. -/
theorem text_gives_leaves (failure : Failure) (filled : failure.NoEmptyAggregate)
    (free : ∀ leaf ∈ failure.leaves, leaf.failure.render.contains "; " = false)
    (plain : ∀ leaf ∈ failure.leaves,
      leaf.failure.render.startsWith "multiple errors: " = false) :
    ((failure.render.split "; ").toList.map fun piece =>
        (piece.dropWhile "multiple errors: ").copy) =
      failure.leaves.map fun leaf => leaf.failure.render := by
  have dropped : ∀ opening ∈ failure.openings,
      (opening.announced.dropWhile "multiple errors: ").copy = opening.failure.render := by
    intro opening opens
    rcases filled.exists_leaf opens with ⟨leaf, among, same⟩
    exact Text.dropWhile_eq opening.depth (by decide) (same ▸ plain leaf among) rfl
  calc (failure.render.split "; ").toList.map (fun piece =>
        (piece.dropWhile "multiple errors: ").copy)
      = ((failure.render.split "; ").toList.map String.Slice.copy).map (fun piece =>
          (piece.dropWhile "multiple errors: ").copy) := by
        rw [List.map_map]
        exact List.map_congr_left fun _ _ => String.Slice.dropWhile_copy.symm
    _ = failure.openings.map fun opening => opening.failure.render := by
        rw [filled.split_render free, List.map_map]
        exact List.map_congr_left dropped
    _ = (failure.openings.map Nested.failure).map render := List.map_map.symm
    _ = failure.leaves.map fun leaf => leaf.failure.render := by
        rw [filled.map_failure_openings, List.map_map]
        rfl

/-- Leaves without a text, with a text that ends like the first half of a separator, and with one
that begins like the second half. -/
theorem text_gives_leaves_of_nested :
    let failure : Failure :=
      .aggregate [.aggregate [.message "", .message "a;"], .external " b", .overflow "addition"]
    failure.render = "multiple errors: multiple errors: ; a;;  b; integer overflow in addition" ∧
      failure.NoEmptyAggregate ∧
      (∀ leaf ∈ failure.leaves, leaf.failure.render.contains "; " = false) ∧
      (∀ leaf ∈ failure.leaves, leaf.failure.render.startsWith "multiple errors: " = false) ∧
      ((failure.render.split "; ").toList.map fun piece =>
        (piece.dropWhile "multiple errors: ").copy) =
          ["", "a;", " b", "integer overflow in addition"] := by
  intro failure
  have filled : failure.NoEmptyAggregate := by
    have inner : (aggregate [.message "", .message "a;"]).IsBuilt := by
      apply isBuilt_aggregate _ (List.cons_ne_nil _ _)
      simp only [List.forall_mem_cons]
      exact ⟨.message "", .message "a;", List.forall_mem_nil _⟩
    apply IsBuilt.noEmptyAggregate
    apply isBuilt_aggregate _ (List.cons_ne_nil _ _)
    simp only [List.forall_mem_cons]
    exact ⟨inner, .external " b", .overflow "addition", List.forall_mem_nil _⟩
  have texts : (failure.leaves.map fun leaf => leaf.failure.render) =
      ["", "a;", " b", "integer overflow in addition"] := by decide
  have free : ∀ text ∈ failure.leaves.map fun leaf => leaf.failure.render,
      text.contains "; " = false := by
    rw [texts]
    simp only [List.forall_mem_cons, ← Bool.not_eq_true, String.contains_string_iff,
      String.reduceToList]
    refine ⟨?_, ?_, ?_, ?_, List.forall_mem_nil _⟩ <;> decide
  have plain : ∀ text ∈ failure.leaves.map fun leaf => leaf.failure.render,
      text.startsWith "multiple errors: " = false := by
    rw [texts]
    simp only [List.forall_mem_cons, ← Bool.not_eq_true, String.startsWith_string_iff,
      String.reduceToList]
    refine ⟨?_, ?_, ?_, ?_, List.forall_mem_nil _⟩ <;> decide
  rw [List.forall_mem_map] at free plain
  refine ⟨by decide, filled, free, plain, ?_⟩
  rw [← texts]
  exact text_gives_leaves failure filled free plain

/-! ## Aggregates and their texts -/

/-- A failure that an evaluation can end with. The failures that come up in its course were made by
the constructors that are open to everybody. -/
def IsReturned (failure : Failure) : Prop :=
  ∃ (kind : Kind) (calculation : Calculation kind) (tracing : Bool) (store : Store),
    let run := calculation.evaluate.run tracing store
    (∀ raised ∈ run.journal.filterMap Entry.raised?, raised.IsBuilt) ∧
      run.outcome = .error failure

theorem isReturned_iff : failure.IsReturned ↔ failure.IsBuilt := by
  constructor
  · rintro ⟨kind, calculation, tracing, store, built, fails⟩
    exact Calculation.isBuilt_of_raised built fails
  · intro built
    refine ⟨.int, .failing failure, false, .empty, ?_, rfl⟩
    exact List.forall_mem_singleton.mpr built

/-- A message, or an error from outside, whose own text begins with the announcement of an
aggregate. -/
def Imitates : Failure → Prop
  | .message text => text.startsWith "multiple errors: " = true
  | .external text => text.startsWith "multiple errors: " = true
  | .overflow _ => False
  | .aggregate _ => False

theorem startsWith_of_isAggregate (together : failure.isAggregate = true) :
    failure.render.startsWith "multiple errors: " = true := by
  cases failure with
  | message text => cases together
  | external text => cases together
  | overflow operation => cases together
  | aggregate causes =>
      rw [render_aggregate, String.startsWith_string_iff, String.toList_append]
      exact List.prefix_append _ _

theorem startsWith_overflow (operation : String) :
    (overflow operation).render.startsWith "multiple errors: " = false := by
  have begins : (overflow operation).render = "integer overflow in " ++ operation := rfl
  rw [begins, ← Bool.not_eq_true, String.startsWith_string_iff, String.toList_append]
  simp

/-- A single failure imitates an aggregate exactly if its text begins like that of an aggregate. -/
theorem imitates_iff :
    failure.Imitates ↔
      failure.isAggregate = false ∧ failure.render.startsWith "multiple errors: " = true := by
  cases failure with
  | message text => exact (and_iff_right rfl).symm
  | external text => exact (and_iff_right rfl).symm
  | overflow operation => simp [Imitates, startsWith_overflow]
  | aggregate causes => simp [Imitates, isAggregate, causes?]

theorem isAggregate_eq_startsWith (honest : ¬failure.Imitates) :
    failure.isAggregate = failure.render.startsWith "multiple errors: " := by
  cases together : failure.isAggregate with
  | true => exact (startsWith_of_isAggregate together).symm
  | false =>
      rw [imitates_iff, not_and] at honest
      exact (Bool.eq_false_iff.mpr (honest together)).symm

theorem isBuilt_singleton (text : String) : (aggregate [.message text]).IsBuilt :=
  isBuilt_aggregate (List.forall_mem_singleton.mpr (.message text)) (List.cons_ne_nil _ _)

namespace Imitates

theorem isBuilt (imitates : failure.Imitates) : failure.IsBuilt := by
  cases failure with
  | message text => exact .message text
  | external text => exact .external text
  | overflow operation => cases imitates
  | aggregate causes => cases imitates

/-- What an imitation looks like is an aggregate of the rest of its text. -/
theorem exists_render_eq (imitates : failure.Imitates) :
    ∃ rest, (aggregate [.message rest]).render = failure.render := by
  have begins := (imitates_iff.mp imitates).2
  rw [String.startsWith_string_iff] at begins
  rcases begins with ⟨rest, whole⟩
  refine ⟨.ofList rest, ?_⟩
  rw [render_aggregate, List.map_singleton, String.intercalate_singleton, ← String.toList_inj,
    String.toList_append, ← whole]
  exact congrArg _ String.toList_ofList

end Imitates

/-- A message can repeat the text of an aggregate. -/
theorem text_does_not_tell_aggregates :
    ¬∀ first second : Failure, first.IsReturned → second.IsReturned →
      first.render = second.render →
        first.isAggregate = second.isAggregate ∧
          first.causes?.isSome = second.causes?.isSome := by
  intro tells
  have repeated : (message "multiple errors: x").IsReturned :=
    isReturned_iff.mpr (.message "multiple errors: x")
  have whole : (aggregate [.message "x"]).IsReturned := isReturned_iff.mpr (isBuilt_singleton "x")
  have same : (message "multiple errors: x").render = (aggregate [.message "x"]).render := by decide
  have alike := (tells _ _ repeated whole same).1
  cases alike

/-- Failures with the same text are both aggregates or both single ones, and both or none of them
have causes, unless one of them is a message, or an error from outside, whose own text begins with
the announcement. No more can be said: evaluations can end with each of these, and also with an
aggregate that has the same text. -/
theorem text_tells_aggregates_unless_imitated :
    (∀ first second : Failure, first.render = second.render →
      ¬first.Imitates → ¬second.Imitates →
        first.isAggregate = second.isAggregate ∧
          first.causes?.isSome = second.causes?.isSome) ∧
    ∀ failure : Failure, failure.Imitates ↔
      failure.IsReturned ∧ failure.isAggregate = false ∧
        ∃ whole : Failure, whole.IsReturned ∧ whole.isAggregate = true ∧
          whole.render = failure.render := by
  constructor
  · intro first second same firstHonest secondHonest
    have alike : first.isAggregate = second.isAggregate := by
      rw [isAggregate_eq_startsWith firstHonest, isAggregate_eq_startsWith secondHonest, same]
    exact ⟨alike, alike⟩
  · intro failure
    constructor
    · intro imitates
      rcases imitates.exists_render_eq with ⟨rest, same⟩
      exact ⟨isReturned_iff.mpr imitates.isBuilt, (imitates_iff.mp imitates).1, _,
        isReturned_iff.mpr (isBuilt_singleton rest), rfl, same⟩
    · rintro ⟨_, single, whole, _, together, same⟩
      exact imitates_iff.mpr ⟨single, same ▸ startsWith_of_isAggregate together⟩

/-- Two aggregates of different causes with one text, and an imitation. -/
theorem text_tells_aggregates_unless_imitated_of_pair :
    let first : Failure := .aggregate [.message "broken", .external "meh"]
    let second : Failure := .aggregate [.message "broken; meh"]
    let imitation : Failure := .external "multiple errors: broken; meh"
    first.render = second.render ∧ ¬first.Imitates ∧ ¬second.Imitates ∧
      first.isAggregate = second.isAggregate ∧
      first.causes?.isSome = second.causes?.isSome ∧
      imitation.Imitates ∧
      ∃ whole : Failure, whole.IsReturned ∧ whole.isAggregate = true ∧
        whole.render = imitation.render := by
  intro first second imitation
  rcases text_tells_aggregates_unless_imitated with ⟨tells, imitated⟩
  have same : first.render = second.render := by decide
  have imitates : imitation.Imitates := by simp [imitation, Imitates]
  rcases tells first second same id id with ⟨alike, bothCaused⟩
  exact ⟨same, id, id, alike, bothCaused, imitates, ((imitated imitation).mp imitates).2.2⟩

end Failure

end Deferred
