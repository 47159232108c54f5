import JavaLiteral.Proofs.Rounding

/-!
# Conversion between formats

Conversion keeps the sign and the infinities (`negative_convert`, `convert_infinite`), and what two
formats have in common is converted into itself (`SameAs.convert_eq`). A finite value that does not
overflow becomes the nearest one with its sign (`isNearestTo_iff`), and the order of values is kept
(`AtMost.convert`).
-/

namespace JavaLiteral

namespace Binary

variable {F G : Format} {x y : Binary F} {z : Binary G}

/-- The bits of the fraction. It is even where the mantissa is. -/
def fraction (x : Binary F) : ℕ := x.code % F.binade

/-- The same infinity or the same number, zeros being told apart by their signs. -/
def SameAs (x : Binary F) (z : Binary G) : Prop :=
  x.negative = z.negative
    ∧ (x.isInfinite ∧ z.isInfinite ∨ x.isFinite ∧ z.isFinite ∧ x.magnitude = z.magnitude)

/-- The order of the values with the infinities at its ends. The two zeros are equal in it, and a
NaN is in no order with anything. -/
def AtMost (x y : Binary F) : Prop :=
  x.isNaN = false ∧ y.isNaN = false
    ∧ (x = infinite true ∨ y = infinite false ∨ x.isFinite ∧ y.isFinite ∧ x.value ≤ y.value)

/-- A finite value that is nearest to a number, and has an even fraction if another value is as
near. -/
structure IsNearestTo (x : Binary F) (v : ℚ) : Prop where
  isFinite : x.isFinite
  nearest : ∀ y : Binary F, y.isFinite → |v - x.value| ≤ |v - y.value|
  even : ∀ y : Binary F, y.isFinite → y.value ≠ x.value → |v - x.value| = |v - y.value| →
    x.fraction % 2 = 0

theorem fraction_mod_two (x : Binary F) : x.fraction % 2 = x.code % 2 :=
  Nat.mod_mod_of_dvd _ F.two_dvd_binade

section Value

theorem magnitude_nonneg (x : Binary F) : 0 ≤ x.magnitude := F.magnitude_nonneg x.code

theorem abs_value (x : Binary F) : |x.value| = x.magnitude := by
  unfold value
  split_ifs
  · rw [abs_neg, abs_of_nonneg x.magnitude_nonneg]
  · exact abs_of_nonneg x.magnitude_nonneg

theorem eq_of_value_eq (hsign : x.negative = y.negative) (h : x.value = y.value) : x = y := by
  have hmagnitude : x.magnitude = y.magnitude := by rw [← abs_value, h, abs_value]
  exact Binary.ext hsign (F.magnitude_strictMono.injective hmagnitude)

theorem abs_value_sub_of_eq (h : z.negative = x.negative) :
    |x.value - z.value| = |x.magnitude - z.magnitude| := by
  unfold value
  rw [h]
  split_ifs
  · rw [neg_sub_neg, abs_sub_comm]
  · rfl

theorem abs_value_sub_of_ne (h : z.negative ≠ x.negative) :
    |x.value - z.value| = x.magnitude + z.magnitude := by
  have hx := x.magnitude_nonneg
  have hz := z.magnitude_nonneg
  unfold value
  cases hn : x.negative <;> cases hm : z.negative <;>
    simp only [Bool.false_eq_true, if_true, if_false]
  · exact absurd (hm.trans hn.symm) h
  · rw [sub_neg_eq_add, abs_of_nonneg (by linarith)]
  · rw [abs_of_nonpos (by linarith)]
    ring
  · exact absurd (hm.trans hn.symm) h

theorem eq_infinite (hx : x.isInfinite) : x = infinite x.negative :=
  Binary.ext rfl (of_decide_eq_true hx)

theorem isFinite_or_eq_infinite (hx : x.isNaN = false) :
    x.isFinite ∨ x = infinite true ∨ x = infinite false := by
  rcases (not_lt.1 (of_decide_eq_false hx)).lt_or_eq with h | h
  · exact .inl (decide_eq_true h)
  · right
    have heq := eq_infinite (decide_eq_true h)
    cases hn : x.negative <;> rw [hn] at heq
    · exact .inr heq
    · exact .inl heq

theorem abs_value_lt (hx : x.isFinite) : |x.value| < F.magnitude F.infinity := by
  rw [abs_value]
  exact F.magnitude_strictMono (of_decide_eq_true hx)

theorem value_infinite (negative : Bool) : (infinite negative : Binary F).value
    = if negative then -F.magnitude F.infinity else F.magnitude F.infinity := rfl

theorem atMost_of_value_le (hx : x.isNaN = false) (hy : y.isNaN = false)
    (h : x.value ≤ y.value) : x.AtMost y := by
  -- The value of an infinity is the number that comes after the finite ones.
  have hpos := F.magnitude_pos F.infinity_pos
  have htrue := value_infinite (F := F) true
  have hfalse := value_infinite (F := F) false
  simp only [Bool.false_eq_true, if_true, if_false] at htrue hfalse
  refine ⟨hx, hy, ?_⟩
  rcases isFinite_or_eq_infinite hx with hfx | rfl | rfl
  · have hx' := abs_lt.1 (abs_value_lt hfx)
    rcases isFinite_or_eq_infinite hy with hfy | rfl | rfl
    · exact .inr (.inr ⟨hfx, hfy, h⟩)
    · linarith
    · exact .inr (.inl rfl)
  · exact .inl rfl
  · rcases isFinite_or_eq_infinite hy with hfy | rfl | rfl
    · have hy' := abs_lt.1 (abs_value_lt hfy)
      linarith
    · linarith
    · exact .inr (.inl rfl)

end Value

section Convert

theorem isFinite_iff : x.isFinite ↔ x.isNaN = false ∧ x.isInfinite = false := by
  unfold isFinite isNaN isInfinite
  simp only [decide_eq_true_eq, decide_eq_false_iff_not]
  omega

theorem convert_of_isFinite (hx : x.isFinite) :
    x.convert G = ofMagnitude x.negative x.magnitude := by
  obtain ⟨hnan, hinf⟩ := isFinite_iff.1 hx
  rw [convert, if_neg (by simp [hnan]), if_neg (by simp [hinf])]

theorem convert_infinite (negative : Bool) :
    (infinite negative : Binary F).convert G = infinite negative := by
  have hnan : (infinite negative : Binary F).isNaN = false := decide_eq_false (lt_irrefl _)
  have hinf : (infinite negative : Binary F).isInfinite := decide_eq_true rfl
  rw [convert, if_neg (by simp [hnan]), if_pos hinf]
  rfl

theorem negative_convert (x : Binary F) : (x.convert G).negative = x.negative := by
  unfold convert
  split_ifs <;> rfl

theorem isNaN_ofMagnitude (negative : Bool) (m : ℚ) :
    (ofMagnitude negative m : Binary F).isNaN = false :=
  decide_eq_false (not_lt.2 (F.round_le m))

theorem isNaN_convert (hx : x.isNaN = false) : (x.convert G).isNaN = false := by
  unfold convert
  rw [if_neg (by simp [hx])]
  split_ifs
  · exact decide_eq_false (lt_irrefl _)
  · exact isNaN_ofMagnitude _ _

theorem sameAs_infinite (negative : Bool) :
    (infinite negative : Binary F).SameAs (infinite negative : Binary G) :=
  ⟨rfl, .inl ⟨decide_eq_true rfl, decide_eq_true rfl⟩⟩

/-- What is in both formats is converted into itself. -/
theorem SameAs.convert_eq (h : x.SameAs z) : x.convert G = z := by
  obtain ⟨hsign, ⟨hx, hz⟩ | ⟨hx, hz, hmagnitude⟩⟩ := h
  · rw [eq_infinite hx, convert_infinite, eq_infinite hz, hsign]
  · rw [convert_of_isFinite hx, hmagnitude]
    exact Binary.ext hsign (Format.round_magnitude (of_decide_eq_true hz).le)

theorem SameAs.symm (h : x.SameAs z) : z.SameAs x :=
  ⟨h.1.symm, h.2.imp And.symm fun h => ⟨h.2.1, h.1, h.2.2.symm⟩⟩

theorem value_ofMagnitude (negative : Bool) (m : ℚ) : (ofMagnitude negative m : Binary F).value
    = if negative then -F.magnitude (F.round m) else F.magnitude (F.round m) := rfl

theorem value_ofMagnitude_mono (h : x.value ≤ y.value) :
    (ofMagnitude x.negative x.magnitude : Binary G).value
      ≤ (ofMagnitude y.negative y.magnitude : Binary G).value := by
  have hx := x.magnitude_nonneg
  have hy := y.magnitude_nonneg
  have hx' := G.magnitude_nonneg (G.round x.magnitude)
  have hy' := G.magnitude_nonneg (G.round y.magnitude)
  have hmono := G.magnitude_strictMono.monotone
  unfold value at h
  rw [value_ofMagnitude, value_ofMagnitude]
  cases hn : x.negative <;> cases hm : y.negative <;>
    simp only [hn, hm, Bool.false_eq_true, if_true, if_false] at h ⊢
  · exact hmono (Format.round_mono hx h)
  · -- Only the two zeros are in the order of their signs reversed.
    rw [show x.magnitude = 0 by linarith, show y.magnitude = 0 by linarith, Format.round_zero,
      G.magnitude_zero, neg_zero]
  · linarith
  · exact neg_le_neg (hmono (Format.round_mono hy (neg_le_neg_iff.1 h)))

theorem AtMost.convert (h : x.AtMost y) : (x.convert G).AtMost (y.convert G) := by
  obtain ⟨hx, hy, h⟩ := h
  have hx' := isNaN_convert (G := G) hx
  have hy' := isNaN_convert (G := G) hy
  rcases h with rfl | rfl | ⟨hfx, hfy, hle⟩
  · exact ⟨hx', hy', .inl (convert_infinite true)⟩
  · exact ⟨hx', hy', .inr (.inl (convert_infinite false))⟩
  · refine atMost_of_value_le hx' hy' ?_
    rw [convert_of_isFinite hfx, convert_of_isFinite hfy]
    exact value_ofMagnitude_mono hle

end Convert

section Nearest

theorem abs_sub_pred_infinity_lt {m : ℚ} (h : m < G.middle (G.infinity - 1)) :
    |m - G.magnitude (G.infinity - 1)| < |m - G.magnitude G.infinity| := by
  have hpos := G.infinity_pos
  have hlt := G.magnitude_strictMono (Nat.sub_lt hpos one_pos)
  unfold Format.middle at h
  rw [Nat.sub_add_cancel hpos] at h
  rw [abs_of_nonpos (show m - G.magnitude G.infinity ≤ 0 by linarith)]
  exact abs_lt.2 ⟨by linarith, by linarith⟩

theorem exists_isFinite_at (hsign : z.negative = x.negative) {code : ℕ} (h : code < G.infinity) :
    ∃ w : Binary G, w.isFinite ∧ w.negative = z.negative ∧ w.code = code
      ∧ |x.value - w.value| = |x.magnitude - G.magnitude code| :=
  ⟨⟨z.negative, code, h.trans G.infinity_lt⟩, decide_eq_true h, rfl, rfl, abs_value_sub_of_eq hsign⟩

theorem isNearest_of_isNearestTo (hx : x.magnitude < G.middle (G.infinity - 1))
    (hsign : z.negative = x.negative) (h : z.IsNearestTo x.value) :
    G.IsNearest x.magnitude z.code := by
  have hpos := G.infinity_pos
  have hself : |x.value - z.value| = |x.magnitude - G.magnitude z.code| :=
    abs_value_sub_of_eq hsign
  have hnearest : ∀ code < G.infinity,
      |x.magnitude - G.magnitude z.code| ≤ |x.magnitude - G.magnitude code| := by
    intro code hcode
    obtain ⟨w, hw, -, -, hdist⟩ := exists_isFinite_at hsign hcode
    rw [← hself, ← hdist]
    exact h.nearest w hw
  -- Infinity is a code to compare with, but none of the values.
  have hinf := (hnearest (G.infinity - 1) (by omega)).trans_lt (abs_sub_pred_infinity_lt hx)
  refine ⟨(of_decide_eq_true h.isFinite).le, fun code hcode => ?_, fun code hcode hne heq => ?_⟩
  · rcases hcode.lt_or_eq with hlt | rfl
    · exact hnearest code hlt
    · exact hinf.le
  · rcases hcode.lt_or_eq with hlt | rfl
    · obtain ⟨w, hw, hwsign, rfl, hdist⟩ := exists_isFinite_at hsign hlt
      rw [← fraction_mod_two]
      refine h.even w hw (fun hvalue => hne ?_) (by rw [hself, hdist, heq])
      rw [eq_of_value_eq hwsign hvalue]
    · exact absurd heq hinf.ne

theorem isNearestTo_of_isNearest (hz : z.isFinite) (hsign : z.negative = x.negative)
    (h : G.IsNearest x.magnitude z.code) : z.IsNearestTo x.value := by
  have hself : |x.value - z.value| = |x.magnitude - G.magnitude z.code| :=
    abs_value_sub_of_eq hsign
  have hzero : |x.magnitude - G.magnitude 0| = x.magnitude := by
    rw [G.magnitude_zero, sub_zero, abs_of_nonneg x.magnitude_nonneg]
  -- A value of the other sign is no nearer than zero.
  have hlezero := h.nearest 0 (Nat.zero_le _)
  refine ⟨hz, fun w hw => ?_, fun w hw hne heq => ?_⟩
  · rw [hself]
    by_cases hw' : w.negative = x.negative
    · rw [abs_value_sub_of_eq hw']
      exact h.nearest w.code (of_decide_eq_true hw).le
    · have := w.magnitude_nonneg
      rw [abs_value_sub_of_ne hw']
      linarith
  · rw [hself] at heq
    rw [fraction_mod_two]
    by_cases hw' : w.negative = x.negative
    · rw [abs_value_sub_of_eq hw'] at heq
      refine h.even w.code (of_decide_eq_true hw).le (fun hcode => hne ?_) heq
      rw [Binary.ext (hw'.trans hsign.symm) hcode]
    · have := w.magnitude_nonneg
      rw [abs_value_sub_of_ne hw'] at heq
      rcases Nat.eq_zero_or_pos z.code with h0 | h0
      · rw [h0]
      · exact h.even 0 (Nat.zero_le _) h0.ne (by linarith)

/-- Below overflow a finite value is converted into the value that is nearest to it, with its
sign. -/
theorem isNearestTo_iff (hx : x.isFinite) (hlt : x.magnitude < G.middle (G.infinity - 1)) :
    z.negative = x.negative ∧ z.IsNearestTo x.value ↔ z = x.convert G := by
  have hmagnitude := x.magnitude_nonneg
  rw [convert_of_isFinite hx]
  constructor
  · rintro ⟨hsign, h⟩
    have hround := (Format.isNearest_iff hmagnitude).1 (isNearest_of_isNearestTo hlt hsign h)
    exact Binary.ext hsign hround.symm
  · rintro rfl
    have hfinite : G.round x.magnitude < G.infinity := by
      refine (G.round_le _).lt_of_ne fun hinf => ?_
      exact absurd hlt (not_lt.2 ((Format.round_eq_infinity_iff hmagnitude).1 hinf))
    exact ⟨rfl, isNearestTo_of_isNearest (decide_eq_true hfinite) rfl
      (Format.isNearest_round hmagnitude)⟩

end Nearest

end Binary

end JavaLiteral
