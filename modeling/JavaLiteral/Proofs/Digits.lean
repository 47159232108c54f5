import JavaLiteral.Text
import Mathlib.Data.Nat.Digits.Lemmas

/-!
# The digits of a numeral

The characters of a numeral stand for the digits of the number in its base, the highest first
(`numeral_eq`), and those denote the number again (`value_digitsOf`). The last digits of a numeral
denote the number modulo a power of the base (`value_drop`).
-/

namespace JavaLiteral

namespace Digits

/-- The number that digits denote, the highest first. -/
def value (b : ℕ) (ds : List ℕ) : ℕ := Nat.ofDigits b ds.reverse

/-- The digits of a number, the highest first. Zero has one. -/
def digitsOf (b n : ℕ) : List ℕ := if n = 0 then [0] else (Nat.digits b n).reverse

variable {b n : ℕ}

theorem value_digitsOf (b n : ℕ) : value b (digitsOf b n) = n := by
  unfold value digitsOf
  split_ifs with h
  · simp [h]
  · rw [List.reverse_reverse, Nat.ofDigits_digits]

theorem digitsOf_ne_nil (b n : ℕ) : digitsOf b n ≠ [] := by
  unfold digitsOf
  split_ifs with h
  · simp
  · simpa [Nat.digits_eq_nil_iff_eq_zero] using h

theorem lt_of_mem_digitsOf (hb : 1 < b) {d : ℕ} (h : d ∈ digitsOf b n) : d < b := by
  unfold digitsOf at h
  split_ifs at h
  · rw [List.mem_singleton.1 h]
    omega
  · exact Nat.digits_lt_base hb (List.mem_reverse.1 h)

theorem digitsOf_of_lt (h : n < b) : digitsOf b n = [n] := by
  unfold digitsOf
  split_ifs with h0
  · rw [h0]
  · rw [Nat.digits_of_lt b n h0 h, List.reverse_singleton]

theorem digitsOf_of_base_le (hb : 1 < b) (h : b ≤ n) :
    digitsOf b n = digitsOf b (n / b) ++ [n % b] := by
  have hn : n ≠ 0 := by omega
  have hd : n / b ≠ 0 := (Nat.div_pos h (by omega)).ne'
  unfold digitsOf
  rw [if_neg hn, if_neg hd, Nat.digits_def' hb (Nat.pos_of_ne_zero hn), List.reverse_cons]

theorem toDigits_eq (hb : 1 < b) (n : ℕ) :
    Nat.toDigits b n = (digitsOf b n).map Nat.digitChar := by
  induction n using Nat.strong_induction_on with
  | h n ih =>
    rcases Nat.lt_or_ge n b with h | h
    · rw [Nat.toDigits_of_lt_base h, digitsOf_of_lt h]
      rfl
    · rw [Nat.toDigits_of_base_le hb h, digitsOf_of_base_le hb h, List.map_append,
        ih (n / b) (Nat.div_lt_self (by omega) hb)]
      rfl

/-- The code points of digits. -/
def text (ds : List ℕ) : Text := ds.map fun d => CodePoint.ofChar d.digitChar

theorem numeral_eq (hb : 1 < b) (n : ℕ) : Text.numeral b n = text (digitsOf b n) := by
  simp [Text.numeral, text, toDigits_eq hb]

/-- Only zero is written with a zero in front. -/
theorem digitsOf_head (h : (digitsOf b n).head? = some 0) :
    (digitsOf b n).length = 1 := by
  unfold digitsOf at h ⊢
  split_ifs at h ⊢ with hn
  · rfl
  · rw [List.head?_reverse, List.getLast?_eq_some_iff] at h
    obtain ⟨l, hl⟩ := h
    refine absurd ?_ (Nat.getLast_digit_ne_zero b hn)
    simp [hl]

theorem length_digitsOf_le_iff (hb : 1 < b) {k : ℕ} (hk : 0 < k) :
    (digitsOf b n).length ≤ k ↔ n < b ^ k := by
  unfold digitsOf
  split_ifs with h
  · rw [h]
    exact iff_of_true hk (Nat.pow_pos (by omega))
  · rw [List.length_reverse, Nat.digits_length_le_iff hb]

theorem value_lt_pow (hb : 1 < b) {ds : List ℕ} (h : ∀ d ∈ ds, d < b) :
    value b ds < b ^ ds.length := by
  unfold value
  rw [← List.length_reverse]
  exact Nat.ofDigits_lt_base_pow_length hb fun d hd => h d (List.mem_reverse.1 hd)

/-- The last `k` digits denote the number modulo `b ^ k`. -/
theorem value_drop (hb : 0 < b) {ds : List ℕ} (h : ∀ d ∈ ds, d < b) (k : ℕ) :
    value b (ds.drop (ds.length - k)) = value b ds % b ^ k := by
  unfold value
  rw [Nat.ofDigits_mod_pow_eq_ofDigits_take k hb _ fun d hd => h d (List.mem_reverse.1 hd)]
  congr 1
  rw [List.reverse_drop]
  rcases Nat.le_total k ds.length with hk | hk
  · rw [Nat.sub_sub_self hk]
  · rw [Nat.sub_eq_zero_of_le hk, Nat.sub_zero, List.take_of_length_le (by simp),
      List.take_of_length_le (by simpa using hk)]

end Digits

end JavaLiteral
