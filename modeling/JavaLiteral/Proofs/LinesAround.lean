import JavaLiteral.Proofs.LineFeeds
import Mathlib.Data.Nat.Find

/-!
# The lines around a position

The lines around a position start at the last line feed up to it (`Text.lineHead`) and stop at the
first one from where the search for their end begins (`Text.lineStop`). That is the end that is
given, as long as it does not lie past the text: then it is the last place (`Text.lastSearched`).
So the lines grow with the end, except where the end passes the length of a text that closes with
a line feed: this one is lost then (`Text.linesAround_through`).
-/

namespace JavaLiteral.Text

variable {t : Text} {p e h s i j : ℕ}

section Bounds

/-- The place of the last line feed up to `p`, or the start of the text if there is none. -/
def lineHead (t : Text) (p : ℕ) : ℕ := Nat.findGreatest t.IsFeed p

/-- The place of the first line feed from `e` on, or the end of the text if there is none. -/
def lineStop (t : Text) (e : ℕ) : ℕ :=
  ((List.range t.length).find? fun i => e ≤ i ∧ t.IsFeed i).getD t.length

theorem lineHead_eq_iff :
    t.lineHead p = h ↔ h ≤ p ∧ (h ≠ 0 → t.IsFeed h) ∧ ∀ ⦃i⦄, h < i → i ≤ p → ¬t.IsFeed i :=
  Nat.findGreatest_eq_iff

theorem lineHead_le (t : Text) (p : ℕ) : t.lineHead p ≤ p := Nat.findGreatest_le p

theorem isFeed_lineHead (hne : t.lineHead p ≠ 0) : t.IsFeed (t.lineHead p) :=
  (lineHead_eq_iff.1 rfl).2.1 hne

/-- What `lineStop` is, as a relation between `e` and the place `s`. -/
def StopsAt (t : Text) (e s : ℕ) : Prop :=
  (e ≤ s ∧ t.IsFeed s ∨ s = t.length) ∧ ∀ i, e ≤ i → i < s → ¬t.IsFeed i

theorem StopsAt.le_length (hs : t.StopsAt e s) : s ≤ t.length := by
  rcases hs.1 with ⟨-, hfeed⟩ | rfl
  · exact hfeed.lt_length.le
  · exact le_rfl

theorem StopsAt.le {s' : ℕ} (hs : t.StopsAt e s) (hs' : t.StopsAt e s') : s' ≤ s := by
  by_contra hlt
  rcases hs.1 with ⟨hes, hfeed⟩ | rfl
  · exact hs'.2 s hes (by omega) hfeed
  · have := hs'.le_length
    omega

theorem stopsAt_lineStop (t : Text) (e : ℕ) : t.StopsAt e (t.lineStop e) := by
  unfold lineStop
  cases hfind : (List.range t.length).find? fun i => e ≤ i ∧ t.IsFeed i with
  | none =>
    rw [List.find?_range_eq_none] at hfind
    refine ⟨.inr rfl, fun i hei hi hfeed => ?_⟩
    simpa [hei, hfeed] using hfind i hi
  | some s =>
    rw [List.find?_range_eq_some] at hfind
    obtain ⟨hs, -, hbefore⟩ := hfind
    refine ⟨.inl (by simpa using hs), fun i hei hi hfeed => ?_⟩
    simpa [hei, hfeed] using hbefore i hi

theorem lineStop_eq_iff : t.lineStop e = s ↔ t.StopsAt e s := by
  constructor
  · rintro rfl
    exact stopsAt_lineStop t e
  · intro hs
    exact le_antisymm (hs.le (stopsAt_lineStop t e)) ((stopsAt_lineStop t e).le hs)

theorem lineStop_le_length (t : Text) (e : ℕ) : t.lineStop e ≤ t.length :=
  (stopsAt_lineStop t e).le_length

theorem le_lineStop (he : e ≤ t.length) : e ≤ t.lineStop e := by
  rcases (stopsAt_lineStop t e).1 with ⟨hle, -⟩ | heq
  · exact hle
  · exact heq ▸ he

theorem isFeed_lineStop (hne : t.lineStop e ≠ t.length) : t.IsFeed (t.lineStop e) :=
  ((stopsAt_lineStop t e).1.resolve_right hne).2

theorem lineStop_of_isFeed (he : t.IsFeed e) : t.lineStop e = e :=
  lineStop_eq_iff.2 ⟨.inl ⟨le_rfl, he⟩, fun i hei hi => absurd hei (by omega)⟩

theorem lineStop_length (t : Text) : t.lineStop t.length = t.length :=
  le_antisymm (lineStop_le_length t _) (le_lineStop le_rfl)

/-- The search may as well begin later, where no line feed is passed over. -/
theorem lineStop_congr {e' : ℕ} (hle : e ≤ e')
    (hfree : ∀ i, e ≤ i → i < e' → ¬t.IsFeed i) : t.lineStop e = t.lineStop e' := by
  obtain ⟨hstop, hbefore⟩ := stopsAt_lineStop t e'
  refine lineStop_eq_iff.2 ⟨hstop.imp_left (And.imp_left hle.trans), fun i hei hi => ?_⟩
  rcases lt_or_ge i e' with hlt | hge
  · exact hfree i hei hlt
  · exact hbefore i hge hi

theorem lineStop_mono {e' : ℕ} (hle : e ≤ e') : t.lineStop e ≤ t.lineStop e' := by
  by_contra hlt
  rcases (stopsAt_lineStop t e').1 with ⟨hge, hfeed⟩ | heq
  · exact (stopsAt_lineStop t e).2 _ (hle.trans hge) (by omega) hfeed
  · have := lineStop_le_length t e
    omega

end Bounds

section Search

theorem getElem?_reverse_take (hp : p < t.length) (hj : j ≤ p) :
    (t.take (p + 1)).reverse[j]? = t[p - j]? := by
  have hlength : (t.take (p + 1)).length = p + 1 := by rw [List.length_take]; omega
  rw [List.getElem?_reverse (by omega), hlength, Nat.add_sub_cancel,
    List.getElem?_take_of_lt (by omega)]

theorem getD_lastLineFeed? (hp : p < t.length) :
    (t.lastLineFeed? (p + 1)).getD 0 = t.lineHead p := by
  have hlength : (t.take (p + 1)).length = p + 1 := by rw [List.length_take]; omega
  symm
  rw [lineHead_eq_iff, lastLineFeed?, hlength, Nat.add_sub_cancel]
  cases hfind : (t.take (p + 1)).reverse.idxOf? (CodePoint.ofChar '\n') with
  | none =>
    rw [List.idxOf?_eq_none_iff, List.mem_reverse] at hfind
    refine ⟨Nat.zero_le p, fun hne => absurd rfl hne, fun i _ hi hfeed => hfind ?_⟩
    exact List.mem_of_getElem? (i := i) (by rw [List.getElem?_take_of_lt (by omega)]; exact hfeed)
  | some k =>
    obtain ⟨hk, hfeed, hbefore⟩ := List.idxOf?_eq_some_iff.1 hfind
    have hkp : k ≤ p := by
      rw [List.length_reverse, hlength] at hk
      omega
    rw [Option.map_some, Option.getD_some]
    refine ⟨Nat.sub_le p k, fun _ => ?_, fun i hi hip hfeed' => ?_⟩
    · rw [IsFeed, ← getElem?_reverse_take hp hkp, List.getElem?_eq_getElem hk, hfeed]
    · refine hbefore (p - i) (by omega) ?_
      rw [← Option.some_inj, ← List.getElem?_eq_getElem, getElem?_reverse_take hp (by omega),
        Nat.sub_sub_self hip]
      exact hfeed'

theorem getD_nextLineFeed? (t : Text) (e : ℕ) :
    (t.nextLineFeed? e).getD t.length = t.lineStop e := by
  symm
  rw [lineStop_eq_iff, nextLineFeed?]
  cases hfind : (t.drop e).idxOf? (CodePoint.ofChar '\n') with
  | none =>
    rw [List.idxOf?_eq_none_iff] at hfind
    refine ⟨.inr rfl, fun i hei _ hfeed => hfind ?_⟩
    refine List.mem_of_getElem? (i := i - e) ?_
    rw [List.getElem?_drop, Nat.add_sub_cancel' hei]
    exact hfeed
  | some k =>
    obtain ⟨hk, hfeed, hbefore⟩ := List.idxOf?_eq_some_iff.1 hfind
    rw [Option.map_some, Option.getD_some]
    refine ⟨.inl ⟨Nat.le_add_right e k, ?_⟩, fun i hei hi hfeed' => ?_⟩
    · rw [IsFeed, ← List.getElem?_drop, List.getElem?_eq_getElem hk, hfeed]
    · refine hbefore (i - e) (by omega) ?_
      rw [← Option.some_inj, ← List.getElem?_eq_getElem, List.getElem?_drop,
        Nat.add_sub_cancel' hei]
      exact hfeed'

theorem place_of_lt (hp : p < t.length) : t.place ((p : ℤ) + 1) = p + 1 := by
  rw [place_of_nonneg (by omega)]
  omega

/-- The lines around a position without an end: the line that it lies in. -/
theorem linesAround_eq_line (hp : p < t.length) :
    t.linesAround p none = t.slice (t.lineHead p) (t.lineStop (p + 1)) := by
  rw [linesAround, if_neg (by omega), searchEnd, place_of_lt hp, getD_lastLineFeed? hp,
    getD_nextLineFeed?]

/-- Where the search for the end of the lines begins. An end past the text is taken as the last
place. -/
def lastSearched (t : Text) (e : ℕ) : ℕ := if t.length < e then t.length - 1 else e

theorem lastSearched_le_length (t : Text) (e : ℕ) : t.lastSearched e ≤ t.length := by
  unfold lastSearched
  split_ifs <;> omega

theorem place_searchEnd (hp : p < t.length) :
    t.place (t.searchEnd p (some (e : ℤ))) = t.lastSearched e := by
  unfold searchEnd lastSearched
  simp only [Int.ofNat_lt]
  split_ifs with he
  · rw [place_of_nonneg (by omega)]
    omega
  · rw [place_of_nonneg (by omega)]
    omega

theorem linesAround_eq_lines (hp : p < t.length) :
    t.linesAround p (some (e : ℤ)) = t.slice (t.lineHead p) (t.lineStop (t.lastSearched e)) := by
  rw [linesAround, if_neg (by omega), place_searchEnd hp, place_of_lt hp, getD_lastLineFeed? hp,
    getD_nextLineFeed?]

end Search

section Through

theorem slice_prefix_slice_iff (hi : i ≤ j) {k : ℕ} (hk : k ≤ t.length) :
    t.slice i k <+: t.slice i j ↔ k ≤ j := by
  constructor
  · intro hstarts
    have := hstarts.length_le
    rw [length_slice, length_slice] at this
    omega
  · intro hle
    exact (List.take_prefix_take_left hle).drop i

theorem lineStop_pred_length (hne : t ≠ []) :
    t.lineStop (t.length - 1) = if t.IsFeed (t.length - 1) then t.length - 1 else t.length := by
  have hpos := List.length_pos_iff.2 hne
  split_ifs with hfeed
  · exact lineStop_of_isFeed hfeed
  · have hstop : t.lineStop (t.length - 1) = t.lineStop t.length := by
      refine lineStop_congr (Nat.sub_le _ _) fun i hi hi' hfeed' => hfeed ?_
      obtain rfl : i = t.length - 1 := by omega
      exact hfeed'
    rw [hstop, lineStop_length]

theorem lineHead_le_lineStop (hp : p < t.length) (hpe : p < e) :
    t.lineHead p ≤ t.lineStop (t.lastSearched e) := by
  refine (lineHead_le t p).trans (le_trans ?_ (le_lineStop (lastSearched_le_length t e)))
  unfold lastSearched
  split_ifs <;> omega

theorem lt_lineStop_iff (hp : p < t.length) (hpe : p < e) :
    p < t.lineStop (t.lastSearched e) ↔ ¬(t.length < e ∧ p + 1 = t.length ∧ t.IsFeed p) := by
  unfold lastSearched
  split_ifs with he
  · rw [lineStop_pred_length (List.ne_nil_of_length_pos (by omega))]
    rcases eq_or_ne (p + 1) t.length with hlast | hlast
    · obtain rfl : p = t.length - 1 := by omega
      split_ifs with hfeed
      · simp [he, hfeed, hlast]
      · simp [hfeed, hp]
    · split_ifs <;> simp only [hlast, false_and, and_false, not_false_iff, iff_true] <;> omega
  · have := le_lineStop (t := t) (e := e) (by omega)
    simp only [he, false_and, not_false_iff, iff_true]
    omega

theorem lineStop_lastSearched_le_iff {e' : ℕ} (hne : t ≠ []) (hle : e ≤ e') :
    t.lineStop (t.lastSearched e) ≤ t.lineStop (t.lastSearched e')
      ↔ ¬(e = t.length ∧ t.length < e' ∧ t.IsFeed (t.length - 1)) := by
  have hpos := List.length_pos_iff.2 hne
  rcases le_or_gt e' t.length with he' | he'
  · rw [lastSearched, lastSearched, if_neg (by omega), if_neg (by omega)]
    simp [lineStop_mono hle, Nat.not_lt.2 he']
  · rw [lastSearched, lastSearched, if_pos he']
    rcases lt_trichotomy e t.length with he | rfl | he
    · rw [if_neg (by omega)]
      simp [lineStop_mono (Nat.le_sub_one_of_lt he), he.ne]
    · rw [if_neg (lt_irrefl _), lineStop_length, lineStop_pred_length hne]
      split_ifs with hfeed
      · simp only [he', hfeed, and_self, not_true_eq_false, iff_false]
        omega
      · simp [hfeed]
    · rw [if_pos he]
      simp [he.ne']

/-- **The lines through an end.** The lines around a place `p` up to an end `e` after it are the
text from the last line feed up to `p` to the first one from `e` on, where an end past the text is
taken as the last place. They hold the place `p`, unless it is a line feed that closes the text and
the end lies past it. For a later end they go on, unless the first end is the length of a text
that a line feed closes and the later one lies past it. -/
theorem linesAround_through (hp : p < t.length) (hpe : p < e) :
    t.linesAround p (some (e : ℤ)) = t.slice (t.lineHead p) (t.lineStop (t.lastSearched e))
      ∧ t.lineHead p ≤ p
      ∧ (p < t.lineStop (t.lastSearched e)
        ↔ ¬(t.length < e ∧ p + 1 = t.length ∧ t.IsFeed p))
      ∧ ∀ e' : ℕ, e ≤ e' →
        (t.linesAround p (some (e : ℤ)) <+: t.linesAround p (some (e' : ℤ))
          ↔ ¬(e = t.length ∧ t.length < e' ∧ t.IsFeed (t.length - 1))) := by
  refine ⟨linesAround_eq_lines hp, lineHead_le t p, lt_lineStop_iff hp hpe, fun e' hle => ?_⟩
  rw [linesAround_eq_lines hp, linesAround_eq_lines hp,
    slice_prefix_slice_iff (lineHead_le_lineStop hp (hpe.trans_le hle)) (lineStop_le_length t _),
    lineStop_lastSearched_le_iff (List.ne_nil_of_length_pos (by omega)) hle]

/-- A letter and a line feed. -/
def closedLetter : Text := "a\n"

/-- The line feed at the end belongs to the lines up to the end of the text, and so these do not
start the ones up to a later end. -/
theorem linesAround_through_closedLetter :
    0 < closedLetter.length ∧ 0 < 2
      ∧ closedLetter.linesAround (0 : ℕ) (some (2 : ℕ)) = closedLetter
      ∧ ¬closedLetter.linesAround (0 : ℕ) (some (2 : ℕ))
        <+: closedLetter.linesAround (0 : ℕ) (some (3 : ℕ)) := by
  obtain ⟨hlines, -, -, hstarts⟩ :=
    linesAround_through (t := closedLetter) (p := 0) (e := 2) (by decide) (by decide)
  refine ⟨by decide, by decide, hlines.trans (by decide), fun h => ?_⟩
  exact (hstarts 3 (by decide)).1 h (by decide)

/-- Where no line feed stands from the end on, the lines do not reach the end of the text all the
same: the line feed that closes it is lost, as part of the lines and as the place they are
around. -/
theorem linesAround_ne_slice_pastEnd :
    closedLetter.lineHead 0 = 0 ∧ closedLetter.lineStop 3 = closedLetter.length
      ∧ closedLetter.linesAround (0 : ℕ) (some (3 : ℕ))
        ≠ closedLetter.slice (closedLetter.lineHead 0) (closedLetter.lineStop 3)
      ∧ closedLetter.linesAround (1 : ℕ) (some (3 : ℕ)) = []
      ∧ ¬closedLetter.linesAround (0 : ℕ) (some (2 : ℕ))
        <+: closedLetter.linesAround (0 : ℕ) (some (3 : ℕ)) := by
  decide

end Through

end JavaLiteral.Text
