import JavaLiteral.Text.Lines
import Mathlib.Data.Finset.Basic
import Mathlib.Data.Finset.Card
import Mathlib.Tactic.Common

/-!
# Counting line feeds

The line feeds of a text stand at certain places (`Text.IsFeed`), and a count from `start` up to
`pos` is the number of those in between, also where these lie outside the text. The exception is a
`pos` below zero with a `start` below that: such a `pos` is counted from the end of the text, and
the line feeds are those before it (`Text.lineFeeds_eq_card`). That is why neighbouring counts add
up where the place between them is not negative.
-/

namespace JavaLiteral.Text

/-- A line feed stands at place `i`. -/
def IsFeed (t : Text) (i : ℕ) : Prop := t[i]? = some (CodePoint.ofChar '\n')

instance (t : Text) (i : ℕ) : Decidable (t.IsFeed i) := inferInstanceAs (Decidable (_ = _))

/-- The places of the line feeds from `start` on and before `stop`. -/
def feedPlaces (t : Text) (start stop : ℤ) : Finset ℕ :=
  (Finset.range t.length).filter fun i => start ≤ i ∧ i < stop ∧ t.IsFeed i

variable {t : Text} {i : ℕ} {a b c : ℤ}

theorem IsFeed.lt_length (h : t.IsFeed i) : i < t.length := (List.getElem?_eq_some_iff.1 h).1

theorem mem_feedPlaces : i ∈ t.feedPlaces a b ↔ a ≤ i ∧ i < b ∧ t.IsFeed i := by
  simp only [feedPlaces, Finset.mem_filter, Finset.mem_range, and_iff_right_iff_imp]
  exact fun h => h.2.2.lt_length

theorem feedPlaces_congr {a' b' : ℤ}
    (h : ∀ i : ℕ, i < t.length → (a ≤ i ∧ i < b ↔ a' ≤ i ∧ i < b')) :
    t.feedPlaces a b = t.feedPlaces a' b' := by
  refine Finset.filter_congr fun i hi => ?_
  rw [← and_assoc, h i (Finset.mem_range.1 hi), and_assoc]

theorem feedPlaces_of_le (h : b ≤ a) : t.feedPlaces a b = ∅ := by
  refine Finset.eq_empty_of_forall_notMem fun i hi => ?_
  obtain ⟨hai, hib, -⟩ := mem_feedPlaces.1 hi
  omega

theorem card_feedPlaces_add (hab : a ≤ b) (hbc : b ≤ c) :
    (t.feedPlaces a b).card + (t.feedPlaces b c).card = (t.feedPlaces a c).card := by
  have hdisjoint : Disjoint (t.feedPlaces a b) (t.feedPlaces b c) := by
    rw [Finset.disjoint_left]
    intro i hi hi'
    have := (mem_feedPlaces.1 hi).2.1
    have := (mem_feedPlaces.1 hi').1
    omega
  rw [← Finset.card_union_of_disjoint hdisjoint]
  congr 1
  ext i
  simp only [Finset.mem_union, mem_feedPlaces]
  constructor
  · rintro (⟨hai, hib, hi⟩ | ⟨hbi, hic, hi⟩)
    · exact ⟨hai, hib.trans_le hbc, hi⟩
    · exact ⟨hab.trans hbi, hic, hi⟩
  · rintro ⟨hai, hic, hi⟩
    rcases lt_or_ge (i : ℤ) b with hib | hbi
    · exact .inl ⟨hai, hib, hi⟩
    · exact .inr ⟨hbi, hic, hi⟩

theorem card_feedPlaces_one (t : Text) (i : ℕ) :
    (t.feedPlaces i (i + 1)).card = if t.IsFeed i then 1 else 0 := by
  have honly : ∀ j, j ∈ t.feedPlaces i (i + 1) ↔ j = i ∧ t.IsFeed i := by
    intro j
    rw [mem_feedPlaces]
    constructor
    · rintro ⟨hij, hji, hj⟩
      obtain rfl : j = i := by omega
      exact ⟨rfl, hj⟩
    · rintro ⟨rfl, hj⟩
      exact ⟨le_rfl, by omega, hj⟩
  split_ifs with h
  · rw [Finset.card_eq_one]
    exact ⟨i, by ext j; simp [honly, h]⟩
  · rw [Finset.card_eq_zero]
    ext j
    simp [honly, h]

theorem count_take (t : Text) (k : ℕ) :
    (t.take k).count (CodePoint.ofChar '\n') = (t.feedPlaces 0 k).card := by
  induction k with
  | zero => rw [List.take_zero, List.count_nil, feedPlaces_of_le (by simp), Finset.card_empty]
  | succ k ih =>
    rw [List.take_add_one, List.count_append, ih, Int.natCast_succ,
      ← card_feedPlaces_add (b := k) (c := k + 1) (by omega) (by omega), card_feedPlaces_one]
    congr 1
    rcases h : t[k]? with _ | d
    · simp [IsFeed, h]
    · simp [IsFeed, h, List.count_singleton]

theorem count_slice {i j : ℕ} (h : i ≤ j) :
    (t.slice i j).count (CodePoint.ofChar '\n') = (t.feedPlaces i j).card := by
  have hcount := congrArg (List.count (CodePoint.ofChar '\n')) (take_append_slice t h)
  have hadd := card_feedPlaces_add (t := t) (a := 0) (b := i) (c := j) (by omega) (by omega)
  rw [List.count_append, count_take, count_take] at hcount
  omega

theorem lineFeeds_of_le (h : b ≤ a) : t.lineFeeds a b = 0 := if_pos h

theorem lineFeeds_of_nonneg (hb : 0 ≤ b) : t.lineFeeds a b = (t.feedPlaces a b).card := by
  rcases le_or_gt b a with hba | hab
  · rw [lineFeeds_of_le hba, feedPlaces_of_le hba, Finset.card_empty]
  · rw [lineFeeds, if_neg (by omega), place_of_nonneg hb, place_of_nonneg (le_max_right a 0),
      count_slice (by omega)]
    -- Bounds that are moved to the ends of the text lose none of its places.
    exact congrArg Finset.card (feedPlaces_congr fun i hi => by omega)

theorem lineFeeds_of_neg (hab : a < b) (hb : b < 0) :
    t.lineFeeds a b = (t.feedPlaces 0 (b + t.length)).card := by
  rw [lineFeeds, if_neg (by omega), place_of_nonneg (le_max_right a 0), place, if_pos hb,
    count_slice (by omega)]
  exact congrArg Finset.card (feedPlaces_congr fun i hi => by omega)

/-- Where a count starts makes no difference below zero. -/
theorem lineFeeds_congr (ha : a ≤ 0) (hac : a < c) (hb : b ≤ 0) (hbc : b < c) :
    t.lineFeeds a c = t.lineFeeds b c := by
  rcases lt_or_ge c 0 with hc | hc
  · rw [lineFeeds_of_neg hac hc, lineFeeds_of_neg hbc hc]
  · rw [lineFeeds_of_nonneg hc, lineFeeds_of_nonneg hc]
    exact congrArg Finset.card (feedPlaces_congr fun i hi => by omega)

/-- **What is counted between two positions.** The count from `start` up to `pos` is the number of
places in between where a line feed stands, unless `start < pos < 0`: then it is the number of those
before the place that `pos` means from the end. Two neighbouring counts add up to the whole one if
and only if they do not meet below zero, or the second is of no place at all, or the first finds
nothing. -/
theorem lineFeeds_eq_card (t : Text) :
    (∀ start pos : ℤ, t.lineFeeds start pos
        = if start < pos ∧ pos < 0 then (t.feedPlaces 0 (pos + t.length)).card
          else (t.feedPlaces start pos).card)
      ∧ ∀ a b c : ℤ, a ≤ b → b ≤ c →
        (t.lineFeeds a c = t.lineFeeds a b + t.lineFeeds b c
          ↔ 0 ≤ b ∨ b = c ∨ t.lineFeeds a b = 0) := by
  refine ⟨fun start pos => ?_, fun a b c hab hbc => ?_⟩
  · split_ifs with h
    · exact lineFeeds_of_neg h.1 h.2
    · rcases le_or_gt pos start with hle | hlt
      · rw [lineFeeds_of_le hle, feedPlaces_of_le hle, Finset.card_empty]
      · exact lineFeeds_of_nonneg (by omega)
  · rcases lt_or_ge b 0 with hb | hb
    · rcases hbc.eq_or_lt with rfl | hlt
      · simp [lineFeeds_of_le le_rfl]
      · rw [lineFeeds_congr (hab.trans hb.le) (hab.trans_lt hlt) hb.le hlt]
        omega
    · rw [lineFeeds_of_nonneg (hb.trans hbc), lineFeeds_of_nonneg hb,
        lineFeeds_of_nonneg (hb.trans hbc), card_feedPlaces_add hab hbc]
      simp [hb]

/-- Two letters after two line feeds. -/
def fedLetters : Text := "\n\nab"

/-- From before the start past the end, cut between the line feeds. -/
theorem lineFeeds_eq_card_fedLetters :
    (-2 : ℤ) ≤ 1 ∧ (1 : ℤ) ≤ 9
      ∧ fedLetters.lineFeeds (-2) 9 = fedLetters.lineFeeds (-2) 1 + fedLetters.lineFeeds 1 9
      ∧ fedLetters.lineFeeds (-2) 9 = 2 := by
  obtain ⟨hcount, hadd⟩ := lineFeeds_eq_card fedLetters
  refine ⟨by decide, by decide, (hadd (-2) 1 9 (by decide) (by decide)).2 (.inl (by decide)), ?_⟩
  exact (hcount (-2) 9).trans (by decide)

/-- No place is at least -2 and below -1, and from the end only the first letter stands in between.
Two line feeds are counted all the same, and they are no part of the count from -2 up to zero. -/
theorem lineFeeds_ne_card_negative :
    fedLetters.lineFeeds (-2) (-1) = 2 ∧ (fedLetters.feedPlaces (-2) (-1)).card = 0
      ∧ fedLetters.lineFeeds (-2) 0
        ≠ fedLetters.lineFeeds (-2) (-1) + fedLetters.lineFeeds (-1) 0 := by
  decide

end JavaLiteral.Text
