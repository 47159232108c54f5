import JavaLiteral.Decimal
import JavaLiteral.Proofs.Digits
import Mathlib.Algebra.Field.Rat
import Mathlib.Data.List.TakeWhile

/-!
# The digits of a decimal

The digits of a decimal are those of its coefficient up to the last one that is not zero
(`digits_eq`). Together with the exponent of the first of them they denote the decimal
(`value_eq`).
-/

namespace JavaLiteral

namespace Digits

variable {b : ℕ}

theorem value_append (b : ℕ) (ds es : List ℕ) :
    value b (ds ++ es) = value b ds * b ^ es.length + value b es := by
  unfold value
  rw [List.reverse_append, Nat.ofDigits_append, List.length_reverse]
  ring

theorem value_zeros (b k : ℕ) : value b (List.replicate k 0) = 0 := by
  unfold value
  rw [List.reverse_replicate]
  induction k with
  | zero => rfl
  | succ k ih => rw [List.replicate_succ, Nat.ofDigits_cons, ih, Nat.mul_zero, Nat.zero_add]

/-- The digits of a number up to the last one that is not zero. -/
def significant (n : ℕ) : List ℕ := ((digitsOf 10 n).reverse.dropWhile (· = 0)).reverse

theorem exists_digitsOf_eq (n : ℕ) : ∃ k, digitsOf 10 n = significant n ++ List.replicate k 0 := by
  set zeros := (digitsOf 10 n).reverse.takeWhile (· = 0) with hzeros
  refine ⟨zeros.length, ?_⟩
  have hall : zeros = List.replicate zeros.length 0 :=
    List.eq_replicate_of_mem fun d hd => by simpa using List.mem_takeWhile_imp hd
  rw [← List.reverse_replicate, ← hall, significant, ← List.reverse_append, hzeros,
    List.takeWhile_append_dropWhile, List.reverse_reverse]

theorem lt_of_mem_significant {n d : ℕ} (h : d ∈ significant n) : d < 10 := by
  obtain ⟨k, hk⟩ := exists_digitsOf_eq n
  refine lt_of_mem_digitsOf (b := 10) (n := n) (by decide) ?_
  rw [hk]
  exact List.mem_append_left _ h

theorem getLast?_significant (n : ℕ) : (significant n).getLast? ≠ some 0 := by
  intro h
  rw [significant, List.getLast?_reverse] at h
  have := List.head?_dropWhile_not (· = 0) (digitsOf 10 n).reverse
  rw [h] at this
  simp at this

theorem head?_significant (n : ℕ) : (significant n).head? ≠ some 0 := by
  intro h
  obtain ⟨k, hk⟩ := exists_digitsOf_eq n
  obtain ⟨ds, hds⟩ := List.head?_eq_some_iff.1 h
  have hlen := digitsOf_head (b := 10) (n := n) (by rw [hk, hds]; rfl)
  rw [hk, hds, List.length_append, List.length_cons] at hlen
  obtain rfl : ds = [] := List.length_eq_zero_iff.1 (by omega)
  exact getLast?_significant n (by rw [hds]; rfl)

end Digits

namespace Decimal

open Digits

theorem digits_eq (d : Decimal) : d.digits = (significant d.coeff).map Nat.digitChar := by
  have hzero : ((fun c : Char => decide (c = '0')) ∘ Nat.digitChar) = fun n => decide (n = 0) :=
    funext fun n => decide_eq_decide.2 Nat.digitChar_eq_zero
  rw [digits, toDigits_eq (by decide), significant, ← List.map_reverse, List.dropWhile_map, hzero,
    List.map_reverse]

theorem length_digits (d : Decimal) : d.digits.length = (significant d.coeff).length := by
  rw [digits_eq, List.length_map]

theorem exists_coeff_eq (d : Decimal) :
    ∃ k : ℕ, d.coeff = Digits.value 10 (significant d.coeff) * 10 ^ k
      ∧ d.leading = d.exp + (significant d.coeff).length + k - 1 := by
  obtain ⟨k, hk⟩ := exists_digitsOf_eq d.coeff
  refine ⟨k, ?_, ?_⟩
  · conv_lhs => rw [← value_digitsOf 10 d.coeff, hk, value_append, value_zeros,
      List.length_replicate, Nat.add_zero]
  · have hlen : digitCount d.coeff = (significant d.coeff).length + k := by
      rw [digitCount, toDigits_eq (by decide), List.length_map, hk, List.length_append,
        List.length_replicate]
    rw [leading, hlen]
    push_cast
    ring

/-- The significant digits and the exponent of the leading one denote the decimal. -/
theorem value_eq (d : Decimal) :
    d.value = Digits.value 10 (significant d.coeff)
      * (10 : ℚ) ^ (d.leading + 1 - (significant d.coeff).length) := by
  obtain ⟨k, hcoeff, hlead⟩ := d.exists_coeff_eq
  have hexp : d.leading + 1 - ((significant d.coeff).length : ℤ) = k + d.exp := by omega
  rw [hexp, zpow_add₀ (by norm_num), zpow_natCast, value]
  conv_lhs => rw [hcoeff]
  push_cast
  ring

theorem significant_ne_nil {d : Decimal} (hd : 0 < d.value) : significant d.coeff ≠ [] := by
  intro h
  rw [value_eq, h] at hd
  simp [Digits.value] at hd

end Decimal

end JavaLiteral
