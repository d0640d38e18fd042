import Deferred.Failure

/-!
# Cutting texts

Pieces that are joined with a separator are given back when the text is cut at the separator again,
if none of them contains it and its last character occurs in it only once. A text is cut at the
leftmost occurrence, so a piece must not make the separator begin too early: no end of a piece, with
the separator behind it, may begin with the separator. A piece may well end with the first
characters of the separator, or begin with its last one.

Besides, an opening can be dropped from the front of a text as often as it stands there.

Positions in a text are known by what stands before and behind them, so all this is about how a text
can be written as two texts, one after the other.
-/

namespace Deferred.Text

open String.Slice.Pattern.Model

variable {stem piece before tail : String} {last : Char} {pieces : List String}
  {text : String.Slice}

/-! ## Pieces and separators -/

/-- A character that is new in both of two equal lists stands at the same place in them. -/
theorem eq_of_append_cons_eq {left right leftTail rightTail : List Char} (leftFresh : last ∉ left)
    (rightFresh : last ∉ right) (same : left ++ last :: leftTail = right ++ last :: rightTail) :
    left = right := by
  rcases List.append_eq_append_iff.mp same with ⟨between, rfl, shifted⟩ | ⟨between, rfl, shifted⟩
  all_goals
    cases between with
    | nil => rw [List.append_nil]
    | cons next between =>
        obtain rfl : last = next := by simpa using (List.cons.inj shifted).1
        simp at leftFresh rightFresh

/-- If a piece, with nothing or the separator behind it, begins with the separator, the separator is
in the piece. It cannot overlap with the one behind the piece. -/
theorem contains_of_begins {after : String} (fresh : last ∉ stem.toList) (nonempty : piece ≠ "")
    (follows : tail = "" ∨ ∃ rest, tail = stem.push last ++ rest)
    (begins : piece ++ tail = stem.push last ++ after) :
    piece.contains (stem.push last) = true := by
  rw [String.contains_string_iff, String.toList_push]
  have lists := congrArg String.toList begins
  simp only [String.toList_append, String.toList_push] at lists
  rcases List.append_eq_append_iff.mp lists with ⟨between, overlap, shifted⟩ | ⟨behind, inside, _⟩
  · rcases List.eq_nil_or_concat between with rfl | ⟨middle, final, rfl⟩
    · rw [List.append_nil] at overlap
      exact overlap ▸ List.infix_refl _
    · -- The separator would begin once more inside of itself, and its last character with it.
      rw [List.concat_eq_append, ← List.append_assoc] at overlap
      rcases List.append_inj' overlap rfl with ⟨whole, single⟩
      obtain rfl : last = final := (List.cons.inj single).1
      have middleFresh : last ∉ middle := by
        intro member
        exact fresh (whole ▸ List.mem_append_right _ member)
      rcases follows with rfl | ⟨rest, rfl⟩
      · simp at shifted
      · simp only [List.concat_eq_append, String.toList_append, String.toList_push,
          List.append_assoc, List.singleton_append] at shifted
        rw [← eq_of_append_cons_eq fresh middleFresh shifted] at whole
        have empty : piece.toList = [] := List.self_eq_append_left.mp whole
        exact absurd (String.toList_eq_nil_iff.mp empty) nonempty
  · rw [inside]
    exact (List.prefix_append _ _).isInfix

/-- No separator begins inside of a piece. -/
theorem not_matchesAt (fresh : last ∉ stem.toList) (free : piece.contains (stem.push last) = false)
    (follows : tail = "" ∨ ∃ rest, tail = stem.push last ++ rest) {start stop pos : text.Pos}
    (starts : start.Splits before (piece ++ tail)) (stops : stop.Splits (before ++ piece) tail)
    (after : start ≤ pos) (earlier : pos < stop) : ¬MatchesAt (stem.push last) pos := by
  intro matched
  rcases ForwardStringSearcher.matchesAt_iff_splits.mp matched with ⟨left, right, cut⟩
  rcases (starts.le_iff_exists_eq_append cut).mp after with ⟨skipped, rfl, _⟩
  rcases (cut.lt_iff_exists_eq_append stops).mp earlier with ⟨ending, nonempty, same, begins⟩
  have whole : piece = skipped ++ ending := by
    rwa [String.append_assoc, String.append_right_inj] at same
  have inside := contains_of_begins fresh nonempty follows begins.symm
  have occurs : piece.contains (stem.push last) = true := by
    rw [String.contains_string_iff] at inside ⊢
    rw [whole, String.toList_append]
    exact inside.trans (List.suffix_append _ _).isInfix
  rw [free] at occurs
  cases occurs

theorem copy_subslice {start stop : text.Pos} (starts : start.Splits before (piece ++ tail))
    (stops : stop.Splits (before ++ piece) tail) (ordered : start ≤ stop) :
    (text.subslice start stop ordered).toSlice.copy = piece := by
  rcases String.Slice.copy_slice_eq_iff_splits.mpr ⟨before, tail, starts, stops⟩ with ⟨_, copied⟩
  rw [String.Slice.toSlice_subslice]
  exact copied

/-- Cutting what is left of a text from a position on. -/
theorem modelSplit_eq [StrictPatternModel (stem.push last)] (fresh : last ∉ stem.toList)
    (free : ∀ own ∈ piece :: pieces, own.contains (stem.push last) = false) {start : text.Pos}
    (starts : start.Splits before ((stem.push last).intercalate (piece :: pieces))) :
    (String.Slice.Pattern.Model.split (stem.push last) start start (Std.le_refl start)).map
      (fun cut => cut.toSlice.copy) = piece :: pieces := by
  have own := free piece List.mem_cons_self
  induction pieces generalizing piece before start with
  | nil =>
      rw [String.intercalate_singleton, ← String.append_empty (s := piece)] at starts
      have stops := starts.splits_rotateRight
      have atEnd : starts.rotateRight = text.endPos := stops.eq_endPos_iff.mpr rfl
      rw [atEnd] at stops
      rw [split_eq_of_not_matchesAt text.endPos (String.Slice.Pos.le_endPos start)
        (fun pos => not_matchesAt fresh own (.inl rfl) starts stops), split_endPos,
        List.map_singleton, copy_subslice starts stops]
  | cons next rest ih =>
      rw [String.intercalate_cons_cons, String.append_assoc] at starts
      have stops := starts.splits_rotateRight
      have resumes := stops.splits_rotateRight
      have ordered : start ≤ starts.rotateRight :=
        (starts.le_iff_exists_eq_append stops).mpr ⟨piece, rfl, rfl⟩
      have found : IsLongestMatchAt (stem.push last) starts.rotateRight stops.rotateRight :=
        ForwardStringSearcher.isLongestMatchAt_iff_splits.mpr ⟨_, _, stops, resumes⟩
      have others : ∀ own ∈ next :: rest, own.contains (stem.push last) = false :=
        fun own member => free own (List.mem_cons_of_mem piece member)
      rw [split_eq_of_not_matchesAt starts.rotateRight ordered
        (fun pos => not_matchesAt fresh own (.inr ⟨_, rfl⟩) starts stops),
        split_eq_of_isLongestMatchAt found, List.map_cons, copy_subslice starts stops]
      exact congrArg _ (ih others resumes (others next List.mem_cons_self))

/-- Cutting a text that was joined from pieces gives the pieces back. -/
theorem split_intercalate {separator : String} (ends : separator = stem.push last)
    (fresh : last ∉ stem.toList) (free : ∀ own ∈ pieces, own.contains separator = false)
    (nonempty : pieces ≠ []) :
    ((separator.intercalate pieces).split separator).toList.map String.Slice.copy = pieces := by
  subst ends
  have visible : stem.push last ≠ "" := by simp
  have strict := ForwardStringSearcher.strictPatternModel visible
  have lawful := ForwardStringSearcher.lawfulToForwardSearcherModel visible
  rcases List.exists_cons_of_ne_nil nonempty with ⟨piece, rest, rfl⟩
  rw [String.split_eq_split_toSlice, String.Slice.toList_split_eq_splitToSubslice,
    String.Slice.Pattern.toList_splitToSubslice_eq_modelSplit, List.map_map]
  apply modelSplit_eq fresh free
  exact String.Slice.splits_startPos_iff.mpr ⟨rfl, String.copy_toSlice.symm⟩

/-- Texts that were joined from pieces can be joined once more, or all pieces at once. -/
theorem intercalate_flatMap {α : Type} {separator : String} {parts : α → List String}
    {items : List α} (nonempty : ∀ item ∈ items, parts item ≠ []) :
    separator.intercalate (items.flatMap parts) =
      separator.intercalate (items.map fun item => separator.intercalate (parts item)) := by
  induction items with
  | nil => rfl
  | cons item items ih =>
      rcases List.forall_mem_cons.mp nonempty with ⟨first, others⟩
      by_cases alone : items = []
      · subst alone
        simp
      · have more : items.flatMap parts ≠ [] := by
          rcases List.exists_mem_of_ne_nil items alone with ⟨other, member⟩
          intro empty
          exact others other member (List.flatMap_eq_nil_iff.mp empty other member)
        rw [List.flatMap_cons, String.intercalate_append_of_ne_nil first more, ih others,
          List.map_cons, String.intercalate_cons_of_ne_nil (by simpa using alone)]

/-! ## Openings -/

/-- A text in front takes no part in a separator whose first character it does not have. -/
theorem contains_append {opening rest separator : String} {first : Char} {others : List Char}
    (begins : separator.toList = first :: others) (fresh : first ∉ opening.toList) :
    (opening ++ rest).contains separator = rest.contains separator := by
  rw [Bool.eq_iff_iff, String.contains_string_iff, String.contains_string_iff,
    String.toList_append, begins]
  generalize opening.toList = front at fresh
  induction front with
  | nil => rw [List.nil_append]
  | cons next front ih =>
      rw [List.mem_cons, not_or] at fresh
      rw [List.cons_append, List.infix_cons_iff, ih fresh.2]
      constructor
      · rintro (starts | inside)
        · exact absurd (List.cons_prefix_cons.mp starts).1 fresh.1
        · exact inside
      · exact .inr

/-- Dropping an opening as often as it stands in front of a text leaves the text. -/
theorem dropWhile_eq {opening rest whole : String} (count : Nat) (visible : opening ≠ "")
    (plain : rest.startsWith opening = false)
    (same : whole = String.join (List.replicate count opening) ++ rest) :
    (whole.dropWhile opening).copy = rest := by
  have strict := ForwardStringSearcher.strictPatternModel visible
  have copied : whole.toSlice.copy = String.join (List.replicate count opening) ++ rest :=
    String.copy_toSlice.trans same
  have starts := String.Slice.splits_startPos_iff.mpr ⟨rfl, copied.symm⟩
  have stops := String.Slice.Pos.splits_ofEqAppend copied
  have dropped : whole.toSlice.skipPrefixWhile opening = .ofEqAppend copied := by
    rw [skipPrefixWhile_eq_iff]
    constructor
    · rcases String.Slice.copy_slice_eq_iff_splits.mpr ⟨"", rest, starts, by simpa using stops⟩
        with ⟨ordered, repeated⟩
      exact ForwardStringSearcher.isLongestMatchAtChain_iff.mpr ⟨ordered, count, repeated⟩
    · left
      intro matched
      rcases ForwardStringSearcher.matchesAt_iff_splits.mp matched with ⟨left, right, cut⟩
      have begins : rest.startsWith opening = true := by
        rw [stops.eq_right cut, String.startsWith_string_iff, String.toList_append]
        exact List.prefix_append _ _
      rw [plain] at begins
      cases begins
  rw [String.dropWhile_eq_dropWhile_toSlice, String.Slice.dropWhile_eq_sliceFrom_skipPrefixWhile,
    dropped]
  exact stops.copy_sliceFrom_eq

end Deferred.Text
