import JavaLiteral.Floating
import JavaLiteral.Proofs.DoubleRounding

/-!
# Narrowing a `double` to `float`

Every value of type `float` is one of type `double` (`Single.sameAs_convert`). So narrowing takes a
`double` to another one: to the nearest of those that are of type `float`, or to infinity from the
middle between the greatest of them and 2 to the 128th on. It changes no sign and none of those that
are of type `float`, and it keeps the order (`narrowed_isNearestTo`).
-/

namespace JavaLiteral

open Binary Binary.Format

namespace Single

theorem sameAs_convert {x : Single} (hx : x.isNaN = false) : x.SameAs (x.convert double) := by
  rcases isFinite_or_eq_infinite hx with hfinite | rfl | rfl
  · have hcode : x.code < single.infinity := of_decide_eq_true hfinite
    obtain ⟨j, -, hmagnitude⟩ := exists_magnitude_eq hcode
    have hj : j < double.infinity := by
      have hinf : single.magnitude single.infinity < double.magnitude double.infinity := by
        decide +kernel
      rw [← double.magnitude_strictMono.lt_iff_lt, hmagnitude]
      exact (single.magnitude_strictMono hcode).trans hinf
    have hsame : x.SameAs (⟨x.negative, j, hj.trans double.infinity_lt⟩ : Double) :=
      ⟨rfl, .inr ⟨hfinite, decide_eq_true hj, hmagnitude.symm⟩⟩
    rw [hsame.convert_eq]
    exact hsame
  · rw [convert_infinite]
    exact sameAs_infinite true
  · rw [convert_infinite]
    exact sameAs_infinite false

theorem middle_pred_infinity : single.middle (single.infinity - 1) = 2 ^ 128 - 2 ^ 103 := by
  decide +kernel

end Single

namespace Double

variable {x : Double}

theorem negative_narrowed (x : Double) : x.narrowed.negative = x.negative :=
  (negative_convert _).trans (negative_convert _)

theorem sameAs_narrowed (hx : x.isNaN = false) : (x.convert single).SameAs x.narrowed :=
  Single.sameAs_convert (isNaN_convert hx)

theorem narrowed_eq_self {s : Single} (h : x.SameAs s) : x.narrowed = x := by
  rw [narrowed, h.convert_eq, h.symm.convert_eq]

theorem narrowed_eq_iff (hx : x.isNaN = false) (z : Double) :
    z = x.narrowed ↔ z.SameAs (x.convert single) := by
  constructor
  · rintro rfl
    exact (sameAs_narrowed hx).symm
  · intro h
    rw [narrowed, h.symm.convert_eq]

theorem narrowed_eq_infinite_iff (hx : x.isFinite) :
    x.narrowed = infinite x.negative ↔ 2 ^ 128 - 2 ^ 103 ≤ |x.value| := by
  have hnan := (isFinite_iff.1 hx).1
  rw [abs_value, ← Single.middle_pred_infinity, ← round_eq_infinity_iff x.magnitude_nonneg]
  have hconvert := convert_of_isFinite (G := single) hx
  constructor
  · -- An infinite result is that of an infinite `float`, since a finite one would come back.
    intro h
    have hback := (sameAs_narrowed hnan).symm.convert_eq
    rw [h, convert_infinite, hconvert] at hback
    exact (congrArg Binary.code hback).symm
  · intro h
    rw [narrowed, hconvert, show ofMagnitude x.negative x.magnitude = infinite x.negative from
      Binary.ext rfl h, convert_infinite]

/-- **Narrowing is rounding to the nearest `float`.** A finite `double` becomes the nearest value of
type `float`, ties going to the even mantissa, or from `2 ^ 128 - 2 ^ 103` on the infinity of its
sign. Every sign stays, that of what becomes zero too; a value of type `float` stays as it is, so
narrowing again changes nothing; and the order is kept, infinities included. -/
theorem narrowed_isNearestTo (x : Double) (hx : x.isFinite) :
    (|x.value| < 2 ^ 128 - 2 ^ 103 → ∀ z : Double,
        z = x.narrowed ↔
          z.negative = x.negative ∧ ∃ s : Single, z.SameAs s ∧ s.IsNearestTo x.value)
      ∧ (x.narrowed = infinite x.negative ↔ 2 ^ 128 - 2 ^ 103 ≤ |x.value|)
      ∧ x.narrowed.negative = x.negative
      ∧ (∀ s : Single, x.SameAs s → x.narrowed = x)
      ∧ x.narrowed.narrowed = x.narrowed
      ∧ ∀ y z : Double, y.AtMost z → y.narrowed.AtMost z.narrowed := by
  have hnan := (isFinite_iff.1 hx).1
  refine ⟨fun hlt z => ?_, narrowed_eq_infinite_iff hx, negative_narrowed x,
    fun s => narrowed_eq_self, narrowed_eq_self (sameAs_narrowed hnan).symm,
    fun y z h => h.convert.convert⟩
  rw [abs_value, ← Single.middle_pred_infinity] at hlt
  rw [narrowed_eq_iff hnan]
  constructor
  · intro h
    obtain ⟨hsign, hnearest⟩ := (isNearestTo_iff hx hlt).2 rfl
    exact ⟨h.1.trans hsign, _, h, hnearest⟩
  · rintro ⟨hsign, s, hs, hnearest⟩
    rwa [← (isNearestTo_iff hx hlt).1 ⟨hs.1.symm.trans hsign, hnearest⟩]

/-- The greatest `double` that becomes a finite `float`. -/
def beforeOverflow : Double := ofBits double 0x47EFFFFFEFFFFFFF

/-- The next `double`, which is as near to the greatest `float` as to infinity. -/
def atOverflow : Double := ofBits double 0x47EFFFFFF0000000

theorem narrowed_isNearestTo_atOverflow :
    beforeOverflow.isFinite ∧ |beforeOverflow.value| < 2 ^ 128 - 2 ^ 103
      ∧ atOverflow.isFinite ∧ 2 ^ 128 - 2 ^ 103 ≤ |atOverflow.value|
      ∧ beforeOverflow.AtMost atOverflow
      ∧ (∃ s : Single, beforeOverflow.narrowed.SameAs s ∧ s.IsNearestTo beforeOverflow.value)
      ∧ atOverflow.narrowed = infinite false
      ∧ beforeOverflow.narrowed.AtMost atOverflow.narrowed := by
  have hbefore : beforeOverflow.isFinite := by decide +kernel
  have hat : atOverflow.isFinite := by decide +kernel
  have hlt : |beforeOverflow.value| < 2 ^ 128 - 2 ^ 103 := by
    rw [abs_value]
    decide +kernel
  have hle : 2 ^ 128 - 2 ^ 103 ≤ |atOverflow.value| := by
    rw [abs_value]
    decide +kernel
  have horder : beforeOverflow.AtMost atOverflow :=
    ⟨by decide +kernel, by decide +kernel, .inr (.inr ⟨hbefore, hat, by decide +kernel⟩)⟩
  obtain ⟨hnearest, -, -, -, -, hmono⟩ := narrowed_isNearestTo beforeOverflow hbefore
  obtain ⟨-, hinfinite, -⟩ := narrowed_isNearestTo atOverflow hat
  exact ⟨hbefore, hlt, hat, hle, horder, ((hnearest hlt _).1 rfl).2, hinfinite.2 hle,
    hmono _ _ horder⟩

-- The negative value next to zero becomes the negative zero.
example : narrowed (ofBits double 0x8000000000000001) = ofBits double 0x8000000000000000 := by
  decide +kernel

end Double

end JavaLiteral
