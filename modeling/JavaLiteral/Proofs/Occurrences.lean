import JavaLiteral.Text.Search
import Mathlib.Data.Finset.Card
import Mathlib.Data.Set.Pairwise.Basic
import Mathlib.Order.Bounds.Basic
import Mathlib.Tactic.Common

/-!
# Occurrences that do not overlap

A text is searched from the left, and the search goes on after each occurrence that it found. No
choice of occurrences that do not overlap has more of them than the search finds, although those of
a text that overlaps itself may be chosen in many ways (`Text.isGreatest_count`): the occurrence
that is found ends no later than any other one, so at most one of a choice starts before its end
(`IsPacking.exists_rest`), and the others are a choice in the rest.

Whether a text occurs, what stands before it and what is left without it follow the same search
(`Text.search_takes_most`).
-/

namespace JavaLiteral.Text

variable {sub t s p r : Text} {i : ℕ}

/-- `sub` stands in `t` from place `i` on. -/
def OccursAt (sub t : Text) (i : ℕ) : Prop := sub <+: t.drop i

/-- Places where `sub` stands in `t`, no two of which are closer than its length. -/
structure IsPacking (sub t : Text) (places : Finset ℕ) : Prop where
  occurs : ∀ i ∈ places, OccursAt sub t i
  apart : (places : Set ℕ).Pairwise fun i j => i + sub.length ≤ j ∨ j + sub.length ≤ i

theorem occursAt_append : OccursAt sub (s ++ t) (s.length + i) ↔ OccursAt sub t i := by
  rw [OccursAt, OccursAt, List.drop_length_add_append]

section Search

/-- The cut is at no place after one where `sub` stands. -/
theorem exists_cut?_of_occursAt :
    ∀ {t : Text} {i : ℕ}, OccursAt sub t i → ∃ p r, cut? sub t = some (p, r) ∧ p.length ≤ i
  | [], i, hocc => by
    rw [OccursAt, List.drop_nil] at hocc
    exact ⟨[], [], by rw [cut?, if_pos (List.prefix_nil.1 hocc)], Nat.zero_le i⟩
  | c :: cs, i, hocc => by
    by_cases hfirst : sub.isPrefixOf (c :: cs)
    · exact ⟨[], _, by rw [cut?, if_pos hfirst], Nat.zero_le i⟩
    · cases i with
      | zero => exact absurd (List.isPrefixOf_iff_prefix.2 hocc) hfirst
      | succ i =>
        obtain ⟨p, r, hcut, hle⟩ := exists_cut?_of_occursAt (t := cs) hocc
        exact ⟨c :: p, r, by rw [cut?, if_neg hfirst, hcut, Option.map_some],
          Nat.succ_le_succ hle⟩

theorem not_occursAt_of_none (h : cut? sub t = none) (i : ℕ) : ¬OccursAt sub t i := by
  intro hocc
  obtain ⟨p, r, hcut, -⟩ := exists_cut?_of_occursAt hocc
  simp [h] at hcut

theorem le_of_occursAt (h : cut? sub t = some (p, r)) (hocc : OccursAt sub t i) :
    p.length ≤ i := by
  obtain ⟨p', r', hcut, hle⟩ := exists_cut?_of_occursAt hocc
  obtain ⟨rfl, -⟩ := Prod.mk.inj (Option.some.inj (h.symm.trans hcut))
  exact hle

theorem pieces_of_none (h : cut? sub t = none) : pieces sub t = [t] := by
  rw [pieces]
  split
  · rfl
  · simp_all

theorem pieces_of_some (h : cut? sub t = some (p, r)) (hsub : sub ≠ []) :
    pieces sub t = p :: pieces sub r := by
  rw [pieces]
  split
  · simp_all
  · rename_i p' r' h'
    obtain ⟨rfl, rfl⟩ := Prod.mk.inj (Option.some.inj (h'.symm.trans h))
    rw [dif_neg hsub]

theorem count_of_none (h : cut? sub t = none) : count sub t = 0 := by
  rw [count, pieces_of_none h, List.length_singleton]

theorem count_of_some (h : cut? sub t = some (p, r)) (hsub : sub ≠ []) :
    count sub t = 1 + count sub r := by
  have := List.length_pos_iff.2 (pieces_ne_nil sub r)
  rw [count, count, pieces_of_some h hsub, List.length_cons]
  omega

theorem remove_of_none (h : cut? sub t = none) : remove sub t = t := by
  rw [remove, pieces_of_none h, List.flatten_singleton]

theorem remove_of_some (h : cut? sub t = some (p, r)) (hsub : sub ≠ []) :
    remove sub t = p ++ remove sub r := by
  rw [remove, pieces_of_some h hsub, List.flatten_cons, remove]

/-- What holds of texts where `sub` does not occur, and of a text if it holds after the first
occurrence, holds of all texts. -/
theorem search_induction {motive : Text → Prop} (hsub : sub ≠ [])
    (hnone : ∀ t, cut? sub t = none → motive t)
    (hsome : ∀ t p r, cut? sub t = some (p, r) → motive r → motive t) (t : Text) : motive t :=
  match h : cut? sub t with
  | none => hnone t h
  | some (p, r) => hsome t p r h (search_induction hsub hnone hsome r)
termination_by t.length
decreasing_by exact length_lt_of_cut? h hsub

end Search

section Packing

theorem occursAt_after (h : cut? sub t = some (p, r)) :
    OccursAt sub t (p.length + sub.length + i) ↔ OccursAt sub r i := by
  rw [eq_of_cut? h, ← List.length_append, occursAt_append]

theorem occursAt_first (h : cut? sub t = some (p, r)) : OccursAt sub t p.length := by
  have hocc : OccursAt sub (p ++ (sub ++ r)) (p.length + 0) :=
    occursAt_append.2 (List.prefix_append sub r)
  rwa [eq_of_cut? h, List.append_assoc]

theorem IsPacking.eq_empty {places : Finset ℕ} (hplaces : IsPacking sub t places)
    (h : cut? sub t = none) : places = ∅ :=
  Finset.eq_empty_of_forall_notMem fun i hi =>
    not_occursAt_of_none h i (hplaces.occurs i hi)

/-- The first occurrence goes with every choice from the rest. -/
theorem IsPacking.exists_whole {places : Finset ℕ} (hplaces : IsPacking sub r places)
    (h : cut? sub t = some (p, r)) (hsub : sub ≠ []) :
    ∃ whole, IsPacking sub t whole ∧ whole.card = 1 + places.card := by
  have hpos := List.length_pos_iff.2 hsub
  have hinj : Function.Injective (p.length + sub.length + ·) := fun _ _ => Nat.add_left_cancel
  have hlater : ∀ j ∈ places.image (p.length + sub.length + ·),
      p.length + sub.length ≤ j := by
    intro j hj
    obtain ⟨i, -, rfl⟩ := Finset.mem_image.1 hj
    exact Nat.le_add_right _ _
  refine ⟨insert p.length (places.image (p.length + sub.length + ·)), ⟨?_, ?_⟩, ?_⟩
  · intro j hj
    rcases Finset.mem_insert.1 hj with rfl | hj
    · exact occursAt_first h
    · obtain ⟨i, hi, rfl⟩ := Finset.mem_image.1 hj
      exact (occursAt_after h).2 (hplaces.occurs i hi)
  · rw [Finset.coe_insert, Set.pairwise_insert]
    refine ⟨fun j hj k hk hne => ?_, fun j hj _ => ⟨.inl (hlater j hj), .inr (hlater j hj)⟩⟩
    obtain ⟨i, hi, rfl⟩ := Finset.mem_image.1 hj
    obtain ⟨l, hl, rfl⟩ := Finset.mem_image.1 hk
    have := hplaces.apart hi hl (fun heq => hne (heq ▸ rfl))
    omega
  · rw [Finset.card_insert_of_notMem fun hmem => ?_, Finset.card_image_of_injective _ hinj,
      Nat.add_comm]
    have := hlater _ hmem
    omega

/-- At most one of the occurrences that are chosen starts before the end of the first one in the
text, and the others are a choice from the rest. -/
theorem IsPacking.exists_rest {places : Finset ℕ} (hplaces : IsPacking sub t places)
    (h : cut? sub t = some (p, r)) :
    ∃ rest, IsPacking sub r rest ∧ places.card ≤ 1 + rest.card := by
  have hsplit := Finset.card_filter_add_card_filter_not (s := places)
    (fun i => p.length + sub.length ≤ i)
  have hearly : (places.filter fun i => ¬p.length + sub.length ≤ i).card ≤ 1 := by
    -- Two of these would both start within the length of `sub` from the first occurrence.
    rw [Finset.card_le_one]
    intro i hi j hj
    rw [Finset.mem_filter] at hi hj
    have hpi := le_of_occursAt h (hplaces.occurs i hi.1)
    have hpj := le_of_occursAt h (hplaces.occurs j hj.1)
    by_contra hne
    have := hplaces.apart hi.1 hj.1 hne
    omega
  have hinj : Set.InjOn (· - (p.length + sub.length))
      (places.filter fun i => p.length + sub.length ≤ i : Finset ℕ) := by
    intro i hi j hj heq
    rw [Finset.mem_coe, Finset.mem_filter] at hi hj
    simp only at heq
    omega
  refine ⟨(places.filter fun i => p.length + sub.length ≤ i).image
    (· - (p.length + sub.length)), ⟨?_, ?_⟩, ?_⟩
  · intro i hi
    obtain ⟨j, hj, rfl⟩ := Finset.mem_image.1 hi
    rw [Finset.mem_filter] at hj
    rw [← occursAt_after h, Nat.add_sub_cancel' hj.2]
    exact hplaces.occurs j hj.1
  · intro i hi k hk hne
    obtain ⟨j, hj, rfl⟩ := Finset.mem_image.1 hi
    obtain ⟨l, hl, rfl⟩ := Finset.mem_image.1 hk
    rw [Finset.mem_filter] at hj hl
    have := hplaces.apart hj.1 hl.1 (fun heq => hne (heq ▸ rfl))
    omega
  · rw [Finset.card_image_of_injOn hinj]
    omega

/-- The search finds as many occurrences as do not overlap. -/
theorem isGreatest_count (hsub : sub ≠ []) (t : Text) :
    IsGreatest {n | ∃ places, IsPacking sub t places ∧ places.card = n} (count sub t) := by
  refine search_induction (motive := fun t =>
    IsGreatest {n | ∃ places, IsPacking sub t places ∧ places.card = n} (count sub t))
    hsub (fun t h => ?_) (fun t p r h ih => ?_) t
  · rw [count_of_none h]
    refine ⟨⟨∅, ⟨by simp, by simp⟩, rfl⟩, ?_⟩
    rintro n ⟨places, hplaces, rfl⟩
    rw [hplaces.eq_empty h, Finset.card_empty]
  · rw [count_of_some h hsub]
    obtain ⟨⟨places, hplaces, hcard⟩, hmost⟩ := ih
    constructor
    · obtain ⟨whole, hwhole, hcard'⟩ := hplaces.exists_whole h hsub
      exact ⟨whole, hwhole, by rw [hcard', hcard]⟩
    · rintro n ⟨whole, hwhole, rfl⟩
      obtain ⟨rest, hrest, hle⟩ := hwhole.exists_rest h
      have := hmost ⟨rest, hrest, rfl⟩
      omega

end Packing

theorem length_join (sub : Text) {ts : List Text} (h : ts ≠ []) :
    ts.flatten.length + sub.length * (ts.length - 1) = (join sub ts).length := by
  induction ts with
  | nil => exact absurd rfl h
  | cons t ts ih =>
    cases ts with
    | nil => simp [join]
    | cons u us =>
      have ih := ih (List.cons_ne_nil u us)
      simp only [join, List.intersperse_cons_cons, List.flatten_cons, List.length_append,
        List.length_cons, Nat.add_sub_cancel, Nat.mul_add, Nat.mul_one] at ih ⊢
      omega

theorem length_remove_add (sub t : Text) :
    (remove sub t).length + sub.length * count sub t = t.length := by
  rw [remove, count, length_join sub (pieces_ne_nil sub t), join_pieces]

theorem exists_occursAt_of_mem {c : CodePoint} (hc : c ∈ p) :
    ∃ i < p.length, OccursAt [c] (p ++ r) i := by
  obtain ⟨a, b, rfl⟩ := List.append_of_mem hc
  refine ⟨a.length, by simp, ?_⟩
  rw [List.append_assoc, ← Nat.add_zero a.length, occursAt_append]
  exact List.prefix_append [c] (b ++ r)

theorem notMem_remove (c : CodePoint) (t : Text) : c ∉ remove [c] t := by
  refine search_induction (motive := fun t => c ∉ remove [c] t) (List.cons_ne_nil c [])
    (fun t h hc => ?_) (fun t p r h ih hc => ?_) t
  · rw [remove_of_none h] at hc
    obtain ⟨i, -, hocc⟩ := exists_occursAt_of_mem (r := []) hc
    rw [List.append_nil] at hocc
    exact not_occursAt_of_none h i hocc
  · rw [remove_of_some h (List.cons_ne_nil c []), List.mem_append] at hc
    rcases hc with hc | hc
    · obtain ⟨i, hi, hocc⟩ := exists_occursAt_of_mem (r := [c] ++ r) hc
      rw [← List.append_assoc, ← eq_of_cut? h] at hocc
      exact absurd (le_of_occursAt h hocc) (Nat.not_le.2 hi)
    · exact ih hc

theorem count_pos_iff (hsub : sub ≠ []) : 0 < count sub t ↔ (cut? sub t).isSome := by
  cases h : cut? sub t with
  | none => simp [count_of_none h]
  | some pr =>
    simp only [count_of_some h hsub, Option.isSome_some, iff_true]
    omega

/-- **The search takes the most.** The count of a text that is not empty is the greatest number of
its occurrences that do not overlap. It is positive if and only if the text occurs, and if and only
if there is something before its first occurrence: this is then what stands before a place where
it occurs and no earlier one does, and after that place the count and the removal go on with the
rest. What is left without the occurrences has their length less, and a single code point is not
left at all. -/
theorem search_takes_most (hsub : sub ≠ []) (t : Text) :
    IsGreatest {n | ∃ places, IsPacking sub t places ∧ places.card = n} (count sub t)
      ∧ (0 < count sub t ↔ contains sub t)
      ∧ (0 < count sub t ↔ before? sub t ≠ none)
      ∧ (∀ p, before? sub t = some p → ∃ r, t = p ++ sub ++ r
        ∧ (∀ i < p.length, ¬OccursAt sub t i)
        ∧ count sub t = 1 + count sub r
        ∧ remove sub t = p ++ remove sub r)
      ∧ (remove sub t).length + sub.length * count sub t = t.length
      ∧ ∀ c, sub = [c] → c ∉ remove sub t := by
  refine ⟨isGreatest_count hsub t, count_pos_iff hsub, ?_, fun p hp => ?_,
    length_remove_add sub t, ?_⟩
  · rw [count_pos_iff hsub, before?, ne_eq, Option.map_eq_none_iff, ← ne_eq,
      Option.isSome_iff_ne_none]
  · obtain ⟨⟨p', r⟩, hcut, rfl⟩ := Option.map_eq_some_iff.1 hp
    exact ⟨r, eq_of_cut? hcut, fun i hi hocc => Nat.not_le.2 hi (le_of_occursAt hcut hocc),
      count_of_some hcut hsub, remove_of_some hcut hsub⟩
  · rintro c rfl
    exact notMem_remove c t

/-- A text that overlaps itself, three times in another one. -/
theorem search_takes_most_overlapping :
    Text.ofString "aba" ≠ []
      ∧ IsGreatest {n | ∃ places, IsPacking "aba" "cabababa" places ∧ places.card = n} 2
      ∧ before? "aba" "cabababa" = some "c"
      ∧ (remove "aba" "cabababa").length + 3 * 2 = 8 := by
  have hne : Text.ofString "aba" ≠ [] := by decide
  have hcount : count "aba" "cabababa" = 2 := by decide +kernel
  obtain ⟨hmost, -, -, -, hlength, -⟩ := search_takes_most hne "cabababa"
  rw [hcount] at hmost hlength
  exact ⟨hne, hmost, by decide, hlength⟩

end JavaLiteral.Text
