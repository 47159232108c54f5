import JavaLiteral.Text.Lines
import Mathlib.Data.List.TakeWhile

/-!
# The lines of a file

A file is cut into lines at its line ends, where a carriage return and a line feed after it are one
(`Text.IsSplit`); the lines that are read are these (`Text.lines_eq_iff`). A text written line by
line has the lines that were written (`Text.lines_flatMap`).
-/

namespace JavaLiteral.Text

/-- A text without line ends. -/
def IsLine (l : Text) : Prop := ∀ c ∈ l, isLineEnd c = false

/-- How a text is cut into lines. A line ends with a line feed, with a carriage return and a line
feed, or with a carriage return alone; the text may end within a line that is not empty. -/
inductive IsSplit : Text → List Text → Prop
  | nil : IsSplit [] []
  | rest {l : Text} (hl : IsLine l) (hne : l ≠ []) : IsSplit l [l]
  | feed {l t : Text} {ls : List Text} (hl : IsLine l) (ht : IsSplit t ls) :
    IsSplit (l ++ CodePoint.ofChar '\n' :: t) (l :: ls)
  | pair {l t : Text} {ls : List Text} (hl : IsLine l) (ht : IsSplit t ls) :
    IsSplit (l ++ CodePoint.ofChar '\r' :: CodePoint.ofChar '\n' :: t) (l :: ls)
  | return {l t : Text} {ls : List Text} (hl : IsLine l)
    (hnext : t.head? ≠ some (CodePoint.ofChar '\n')) (ht : IsSplit t ls) :
    IsSplit (l ++ CodePoint.ofChar '\r' :: t) (l :: ls)

variable {l t : Text} {ls : List Text}

theorem segments_line (hl : IsLine l) (hne : l ≠ []) : segments l = [l] := by
  induction l with
  | nil => exact absurd rfl hne
  | cons c cs ih =>
    have hc := hl c List.mem_cons_self
    rw [segments, if_neg (by simp [hc])]
    cases cs with
    | nil => rfl
    | cons d ds => rw [ih (fun e he => hl e (List.mem_cons_of_mem _ he)) (List.cons_ne_nil _ _)]

theorem segments_append (hl : IsLine l) {c : CodePoint} (hc : isLineEnd c) :
    segments (l ++ c :: t) = l :: segments t := by
  induction l with
  | nil =>
    rw [List.nil_append, segments, if_pos hc]
  | cons d ds ih =>
    have hd := hl d List.mem_cons_self
    rw [List.cons_append, segments, if_neg (by simp [hd]),
      ih fun e he => hl e (List.mem_cons_of_mem _ he)]

theorem dropPairedFeeds_cons {c : CodePoint}
    (h : c = '\r' → t.head? ≠ some (CodePoint.ofChar '\n')) :
    dropPairedFeeds (c :: t) = c :: dropPairedFeeds t := by
  cases t with
  | nil => rfl
  | cons d ds =>
    rw [dropPairedFeeds, if_neg]
    rintro ⟨hc, rfl⟩
    exact h hc rfl

theorem dropPairedFeeds_append (hl : IsLine l) :
    dropPairedFeeds (l ++ t) = l ++ dropPairedFeeds t := by
  induction l with
  | nil => rfl
  | cons c cs ih =>
    have hc := hl c List.mem_cons_self
    rw [List.cons_append, dropPairedFeeds_cons, ih fun e he => hl e (List.mem_cons_of_mem _ he)]
    · rfl
    · rintro rfl
      exact absurd hc (by decide)

/-- The lines of a text depend on how it is cut only. -/
theorem lines_of_isSplit (h : IsSplit t ls) : t.lines = ls := by
  unfold lines
  induction h with
  | nil => rfl
  | rest hl hne =>
    have hdrop := dropPairedFeeds_append hl (t := [])
    rw [List.append_nil] at hdrop
    rw [hdrop, dropPairedFeeds, List.append_nil, segments_line hl hne]
  | feed hl _ ih =>
    have hfeed : CodePoint.ofChar '\n' ≠ CodePoint.ofChar '\r' := by decide
    rw [dropPairedFeeds_append hl, dropPairedFeeds_cons fun h => absurd h hfeed,
      segments_append hl (by decide), ih]
  | pair hl _ ih =>
    rw [dropPairedFeeds_append hl, dropPairedFeeds, if_pos ⟨rfl, rfl⟩,
      segments_append hl (by decide), ih]
  | «return» hl hnext _ ih =>
    rw [dropPairedFeeds_append hl, dropPairedFeeds_cons fun _ => hnext,
      segments_append hl (by decide), ih]

theorem exists_isSplit (t : Text) : ∃ ls, IsSplit t ls := by
  induction hn : t.length using Nat.strong_induction_on generalizing t with
  | h n ih =>
    subst hn
    have hline : IsLine (t.takeWhile fun c => !isLineEnd c) := fun c hc => by
      simpa using List.mem_takeWhile_imp hc
    have hcut := List.takeWhile_append_dropWhile (p := fun c => !isLineEnd c) (l := t)
    cases hrest : t.dropWhile fun c => !isLineEnd c with
    | nil =>
      rw [hrest, List.append_nil] at hcut
      rw [hcut] at hline
      rcases eq_or_ne t [] with rfl | hne
      · exact ⟨_, .nil⟩
      · exact ⟨_, .rest hline hne⟩
    | cons c cs =>
      rw [hrest] at hcut
      have hc : isLineEnd c := by
        have := List.head?_dropWhile_not (fun c => !isLineEnd c) t
        rw [hrest] at this
        simpa using this
      have hlength : cs.length < t.length := by
        rw [← hcut, List.length_append, List.length_cons]
        omega
      rw [← hcut]
      -- A return takes the feed after it along, if there is one.
      rcases (by simpa [isLineEnd] using hc : c = '\n' ∨ c = '\r') with rfl | rfl
      · obtain ⟨ls, hls⟩ := ih _ hlength cs rfl
        exact ⟨_, .feed hline hls⟩
      · by_cases hnext : cs.head? = some (CodePoint.ofChar '\n')
        · obtain ⟨ds, rfl⟩ := List.head?_eq_some_iff.1 hnext
          obtain ⟨ls, hls⟩ := ih ds.length ((Nat.lt_succ_self _).trans hlength) ds rfl
          exact ⟨_, .pair hline hls⟩
        · obtain ⟨ls, hls⟩ := ih _ hlength cs rfl
          exact ⟨_, .return hline hnext hls⟩

theorem lines_eq_iff : t.lines = ls ↔ IsSplit t ls := by
  refine ⟨?_, lines_of_isSplit⟩
  rintro rfl
  obtain ⟨ls, h⟩ := exists_isSplit t
  rwa [lines_of_isSplit h]

/-- What is written line by line has the lines that were written. -/
theorem lines_flatMap (h : ∀ l ∈ ls, IsLine l) :
    Text.lines (ls.flatMap fun l => l ++ [CodePoint.ofChar '\n']) = ls := by
  refine lines_of_isSplit ?_
  induction ls with
  | nil => exact .nil
  | cons l ls ih =>
    rw [List.flatMap_cons, List.append_assoc, List.singleton_append]
    exact .feed (h l List.mem_cons_self) (ih fun m hm => h m (List.mem_cons_of_mem _ hm))

end JavaLiteral.Text
