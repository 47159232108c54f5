import JavaLiteral.Proofs.LinesAround
import Mathlib.Data.List.Dedup

/-!
# The lines of a text as its parts

Each place of a text lies in one line: a line starts with the text or at a line feed, holds no other
line feed and stops where the next one starts or the text ends. Taken once each and in order, the
lines are the whole text, and the line feeds tell them apart: as many lines come before that of a
place as line feeds stand up to it, past the first place, and two places lie in one line if and only
if no line feed stands past the one up to the other (`Text.linesAround_partition`).

The facts about all lines are shown line after line, from the last one back (`line_induction`), and
each place of a line has the same bounds as its start (`boundsFrom_eq_cons`).
-/

namespace JavaLiteral.Text

variable {t : Text} {p q h : ℕ}

/-- Where the line around place `p` starts and stops. -/
def lineBounds (t : Text) (p : ℕ) : ℕ × ℕ := (t.lineHead p, t.lineStop (p + 1))

/-- What makes the stretch from `b.1` up to `b.2` the line around place `p`. -/
structure IsLineAround (t : Text) (p : ℕ) (b : ℕ × ℕ) : Prop where
  head_le : b.1 ≤ p
  lt_stop : p < b.2
  starts : b.1 = 0 ∨ t.IsFeed b.1
  stops : b.2 = t.length ∨ t.IsFeed b.2
  inner : ∀ i, b.1 < i → i < b.2 → ¬t.IsFeed i

theorem lt_lineStop (hp : p < t.length) : p < t.lineStop (p + 1) := le_lineStop hp

theorem isLineAround_lineBounds (hp : p < t.length) : t.IsLineAround p (t.lineBounds p) where
  head_le := lineHead_le t p
  lt_stop := lt_lineStop hp
  starts := or_iff_not_imp_left.2 isFeed_lineHead
  stops := or_iff_not_imp_left.2 isFeed_lineStop
  inner := by
    intro i hi hi'
    rcases le_or_gt i p with hip | hpi
    · exact (lineHead_eq_iff.1 rfl).2.2 hi hip
    · exact (stopsAt_lineStop t (p + 1)).2 i hpi hi'

theorem lineBounds_eq_iff (hpq : p ≤ q) :
    t.lineBounds p = t.lineBounds q ↔ ∀ i, p < i → i ≤ q → ¬t.IsFeed i := by
  constructor
  · intro heq i hpi hiq
    have hhead : t.lineHead q ≤ p := (congrArg Prod.fst heq).symm.trans_le (lineHead_le t p)
    exact (lineHead_eq_iff.1 rfl).2.2 (hhead.trans_lt hpi) hiq
  · intro hfree
    have hhead : t.lineHead q = t.lineHead p := by
      obtain ⟨hle, hfeed, hlast⟩ := lineHead_eq_iff.1 (rfl : t.lineHead p = t.lineHead p)
      refine lineHead_eq_iff.2 ⟨hle.trans hpq, hfeed, fun i hi hiq => ?_⟩
      rcases le_or_gt i p with hip | hpi
      · exact hlast hi hip
      · exact hfree i hpi hiq
    have hstop : t.lineStop (p + 1) = t.lineStop (q + 1) :=
      lineStop_congr (by omega) fun i hi hi' => hfree i hi (by omega)
    rw [lineBounds, lineBounds, hhead, hstop]

theorem lineFeeds_eq_zero_iff :
    t.lineFeeds ((p : ℤ) + 1) ((q : ℤ) + 1) = 0 ↔ ∀ i, p < i → i ≤ q → ¬t.IsFeed i := by
  rw [lineFeeds_of_nonneg (by omega), Finset.card_eq_zero, Finset.eq_empty_iff_forall_notMem]
  refine forall_congr' fun i => ?_
  rw [mem_feedPlaces]
  constructor
  · intro hnot hpi hiq hfeed
    exact hnot ⟨by omega, by omega, hfeed⟩
  · rintro hfree ⟨hpi, hiq, hfeed⟩
    exact hfree (by omega) (by omega) hfeed

section Run

/-- A place where a line starts, or the end of the text. -/
def IsLineStart (t : Text) (h : ℕ) : Prop := h = 0 ∨ t.IsFeed h ∨ h = t.length

theorem isLineStart_lineStop (t : Text) (e : ℕ) : t.IsLineStart (t.lineStop e) := by
  rcases (stopsAt_lineStop t e).1 with ⟨-, hfeed⟩ | heq
  · exact .inr (.inl hfeed)
  · exact .inr (.inr heq)

theorem IsLineStart.lineBounds_eq (hstart : t.IsLineStart h) (hlt : h < t.length) :
    t.lineBounds h = (h, t.lineStop (h + 1)) := by
  refine Prod.ext (lineHead_eq_iff.2 ⟨le_rfl, fun hne => ?_, fun i hi hi' => ?_⟩) rfl
  · exact (hstart.resolve_left hne).resolve_right hlt.ne
  · omega

/-- What holds at the end of a text, and at the start of a line if it holds where the line stops,
holds at the start of every line. -/
theorem line_induction {motive : ℕ → Prop} (hend : motive t.length)
    (hline : ∀ h < t.length, t.IsLineStart h → motive (t.lineStop (h + 1)) → motive h)
    (h : ℕ) (hle : h ≤ t.length) (hstart : t.IsLineStart h) : motive h := by
  rcases hle.eq_or_lt with rfl | hlt
  · exact hend
  · have := lt_lineStop hlt
    exact hline h hlt hstart (line_induction hend hline _ (lineStop_le_length t _)
      (isLineStart_lineStop t _))
termination_by t.length - h

/-- The bounds of the lines around the places from `h` on, each once. -/
def boundsFrom (t : Text) (h : ℕ) : List (ℕ × ℕ) :=
  ((List.range' h (t.length - h)).map t.lineBounds).dedup

/-- The bounds of all lines, each once and in order. -/
def allBounds (t : Text) : List (ℕ × ℕ) := ((List.range t.length).map t.lineBounds).dedup

theorem allBounds_eq (t : Text) : t.allBounds = t.boundsFrom 0 := by
  rw [allBounds, boundsFrom, List.range_eq_range', Nat.sub_zero]

theorem boundsFrom_length (t : Text) : t.boundsFrom t.length = [] := by
  rw [boundsFrom, Nat.sub_self, List.range'_zero, List.map_nil, List.dedup_nil]

/-- A line stops before each place that has other bounds. -/
theorem lineBounds_eq_start_iff (hstart : t.IsLineStart h) (hhq : h ≤ q) (hq : q < t.length) :
    t.lineBounds q = (h, t.lineStop (h + 1)) ↔ q < t.lineStop (h + 1) := by
  have hlt := hhq.trans_lt hq
  rw [← hstart.lineBounds_eq hlt, eq_comm, lineBounds_eq_iff hhq]
  constructor
  · intro hfree
    by_contra hge
    have hstop := lt_lineStop hlt
    exact hfree _ hstop (by omega) (isFeed_lineStop (by omega))
  · intro hlt' i hi hiq
    exact (stopsAt_lineStop t (h + 1)).2 i hi (by omega)

theorem map_lineBounds_line (hlt : h < t.length) (hstart : t.IsLineStart h) :
    (List.range' h (t.lineStop (h + 1) - h)).map t.lineBounds
      = List.replicate (t.lineStop (h + 1) - h) (h, t.lineStop (h + 1)) := by
  have hstop := lt_lineStop hlt
  have hle := lineStop_le_length t (h + 1)
  refine List.eq_replicate_iff.2 ⟨by rw [List.length_map, List.length_range'], fun b hb => ?_⟩
  obtain ⟨q, hq, rfl⟩ := List.mem_map.1 hb
  rw [List.mem_range'_1] at hq
  exact (lineBounds_eq_start_iff hstart hq.1 (by omega)).2 (by omega)

theorem notMem_map_lineBounds_rest (hlt : h < t.length) (hstart : t.IsLineStart h) :
    (h, t.lineStop (h + 1)) ∉
      (List.range' (t.lineStop (h + 1)) (t.length - t.lineStop (h + 1))).map t.lineBounds := by
  have hstop := lt_lineStop hlt
  intro hmem
  obtain ⟨q, hq, heq⟩ := List.mem_map.1 hmem
  rw [List.mem_range'_1] at hq
  have := (lineBounds_eq_start_iff hstart (by omega) (by omega)).1 heq
  omega

/-- The places of a line all give its bounds, and those after it do not. -/
theorem boundsFrom_eq_cons (hlt : h < t.length) (hstart : t.IsLineStart h) :
    t.boundsFrom h = (h, t.lineStop (h + 1)) :: t.boundsFrom (t.lineStop (h + 1)) := by
  have hstop := lt_lineStop hlt
  have hle := lineStop_le_length t (h + 1)
  have hcut : List.range' h (t.length - h)
      = List.range' h (t.lineStop (h + 1) - h)
        ++ List.range' (t.lineStop (h + 1)) (t.length - t.lineStop (h + 1)) := by
    have hjoin := List.range'_append_1 (s := h) (m := t.lineStop (h + 1) - h)
      (n := t.length - t.lineStop (h + 1))
    rw [Nat.add_sub_cancel' hstop.le] at hjoin
    rw [hjoin]
    congr 1
    omega
  -- Once the bounds are taken once each, the first part leaves one element and the rest is apart.
  have hdisjoint : List.Disjoint
      (List.replicate (t.lineStop (h + 1) - h) (h, t.lineStop (h + 1)))
      ((List.range' (t.lineStop (h + 1)) (t.length - t.lineStop (h + 1))).map t.lineBounds) := by
    intro b hb hb'
    obtain rfl := List.eq_of_mem_replicate hb
    exact notMem_map_lineBounds_rest hlt hstart hb'
  rw [boundsFrom, hcut, List.map_append, map_lineBounds_line hlt hstart, hdisjoint.dedup_append,
    List.replicate_dedup (by omega), List.singleton_append, boundsFrom]

theorem flatten_boundsFrom (hle : h ≤ t.length) (hstart : t.IsLineStart h) :
    ((t.boundsFrom h).map fun b => t.slice b.1 b.2).flatten = t.drop h := by
  refine line_induction (t := t)
    (motive := fun h => ((t.boundsFrom h).map fun b => t.slice b.1 b.2).flatten = t.drop h)
    ?_ (fun h hlt hstart ih => ?_) h hle hstart
  · rw [boundsFrom_length, List.drop_length]
    rfl
  · rw [boundsFrom_eq_cons hlt hstart, List.map_cons, List.flatten_cons, ih]
    exact slice_append_drop t (lt_lineStop hlt).le (lineStop_le_length t _)

theorem card_feedPlaces_line (hlt : h < t.length) (hge : t.lineStop (h + 1) ≤ p)
    (hp : p < t.length) :
    (t.feedPlaces ((h : ℤ) + 1) ((p : ℤ) + 1)).card
      = (t.feedPlaces ((t.lineStop (h + 1) : ℤ) + 1) ((p : ℤ) + 1)).card + 1 := by
  have hstop := lt_lineStop hlt
  have hfree : t.feedPlaces ((h : ℤ) + 1) (t.lineStop (h + 1)) = ∅ := by
    refine Finset.eq_empty_of_forall_notMem fun i hi => ?_
    obtain ⟨hhi, his, hfeed⟩ := mem_feedPlaces.1 hi
    exact (stopsAt_lineStop t (h + 1)).2 i (by omega) (by omega) hfeed
  have hone := card_feedPlaces_one t (t.lineStop (h + 1))
  rw [if_pos (isFeed_lineStop (by omega))] at hone
  rw [← card_feedPlaces_add (b := (t.lineStop (h + 1) : ℤ)) (by omega) (by omega), hfree,
    Finset.card_empty,
    ← card_feedPlaces_add (b := (t.lineStop (h + 1) : ℤ) + 1) (by omega) (by omega), hone]
  omega

theorem idxOf_boundsFrom (hle : h ≤ t.length) (hstart : t.IsLineStart h) (hhp : h ≤ p)
    (hp : p < t.length) :
    (t.boundsFrom h).idxOf (t.lineBounds p)
      = (t.feedPlaces ((h : ℤ) + 1) ((p : ℤ) + 1)).card := by
  refine line_induction (t := t)
    (motive := fun h => h ≤ p → (t.boundsFrom h).idxOf (t.lineBounds p)
      = (t.feedPlaces ((h : ℤ) + 1) ((p : ℤ) + 1)).card)
    (fun hcon => by omega) (fun h hlt hstart ih hhp => ?_) h hle hstart hhp
  rw [boundsFrom_eq_cons hlt hstart]
  have hiff := lineBounds_eq_start_iff hstart hhp hp
  rcases lt_or_ge p (t.lineStop (h + 1)) with hlt' | hge
  · rw [hiff.2 hlt', List.idxOf_cons_self, ← lineFeeds_of_nonneg (by omega), eq_comm,
      lineFeeds_eq_zero_iff]
    exact fun i hi hip => (stopsAt_lineStop t (h + 1)).2 i hi (by omega)
  · have hne : (h, t.lineStop (h + 1)) ≠ t.lineBounds p := fun heq => by
      have := hiff.1 heq.symm
      omega
    rw [List.idxOf_cons_ne _ hne, ih hge, card_feedPlaces_line hlt hge hp]

end Run

/-- **The lines of a text are its parts.** What stands around a place is a line that holds it: it
starts with the text or at a line feed, holds no other line feed, and stops at the next one or at
the end of the text. The lines around all places, each taken once and in order, put together are
the text; the number of those before the line around a place is the count of the line feeds up to
it, past the first place; and two places are in one line if and only if no line feed is counted
past the one up to the other. -/
theorem linesAround_partition (t : Text) :
    (∀ p < t.length,
      t.linesAround p none = t.slice (t.lineBounds p).1 (t.lineBounds p).2
        ∧ t.IsLineAround p (t.lineBounds p)
        ∧ t.allBounds.idxOf (t.lineBounds p) = t.lineFeeds 1 ((p : ℤ) + 1))
      ∧ (t.allBounds.map fun b => t.slice b.1 b.2).flatten = t
      ∧ ∀ p q, p ≤ q → q < t.length →
        (t.lineBounds p = t.lineBounds q ↔ t.lineFeeds ((p : ℤ) + 1) ((q : ℤ) + 1) = 0) := by
  have hstart : t.IsLineStart 0 := .inl rfl
  refine ⟨fun p hp => ⟨linesAround_eq_line hp, isLineAround_lineBounds hp, ?_⟩, ?_,
    fun p q hpq _ => ?_⟩
  · rw [allBounds_eq, idxOf_boundsFrom (Nat.zero_le _) hstart (Nat.zero_le p) hp,
      lineFeeds_of_nonneg (by omega)]
    rfl
  · rw [allBounds_eq, flatten_boundsFrom (Nat.zero_le _) hstart, List.drop_zero]
  · rw [lineBounds_eq_iff hpq, lineFeeds_eq_zero_iff]

/-- A text with line feeds at its start, next to each other and at its end. -/
def looseLines : Text := "\na\n\nbc\n"

/-- Its two letters next to each other are in the third of the four lines. -/
theorem linesAround_partition_looseLines :
    4 < looseLines.length ∧ 4 ≤ 5 ∧ 5 < looseLines.length
      ∧ looseLines.linesAround (4 : ℕ) none = "\nbc"
      ∧ looseLines.allBounds.idxOf (looseLines.lineBounds 4) = 2
      ∧ looseLines.lineBounds 4 = looseLines.lineBounds 5 := by
  obtain ⟨hlines, -, hsame⟩ := linesAround_partition looseLines
  obtain ⟨hslice, -, hindex⟩ := hlines 4 (by decide)
  refine ⟨by decide, by decide, by decide, hslice.trans (by decide), hindex.trans (by decide), ?_⟩
  exact (hsame 4 5 (by decide) (by decide)).2 (by decide)

end JavaLiteral.Text
