import JavaLiteral.Proofs.IntegerReading

/-!
# The digits of a hexadecimal literal

Hexadecimal digits are those of the value as 64 bits in two's complement, with no zero in front. A
literal shows all of them for a value that is not negative. Of the sixteen digits of a negative
value it keeps two for each byte of the type, so they denote the value modulo the size of the type,
and it is always cast or has the suffix of a `long` (`hexadecimal_digits`).
-/

namespace JavaLiteral

open Digits

/-- The lowercase hexadecimal digits in the order of their values. -/
def hexAlphabet : Text := "0123456789abcdef"

/-- A text of lowercase hexadecimal digits that denotes a number. -/
def IsHexNumeral (u : Text) (n : ℤ) : Prop :=
  u ≠ [] ∧ ∃ ds : List ℕ, u.map some = ds.map (hexAlphabet[·]?) ∧ (value 16 ds : ℤ) = n

section Numeral

variable {u : Text} {n : ℕ}

theorem map_hexAlphabet {ds : List ℕ} (h : ∀ d ∈ ds, d < 16) :
    ds.map (hexAlphabet[·]?) = (text ds).map some := by
  have hdigit : ∀ d < 16, hexAlphabet[d]? = some (CodePoint.ofChar d.digitChar) := by decide
  rw [text, List.map_map]
  exact List.map_congr_left fun d hd => hdigit d (h d hd)

theorem isHexNumeral_text {ds : List ℕ} (hne : ds ≠ []) (h : ∀ d ∈ ds, d < 16) :
    IsHexNumeral (text ds) (value 16 ds) :=
  ⟨by simpa [text] using hne, ds, (map_hexAlphabet h).symm, rfl⟩

theorem isHexNumeral_numeral (n : ℕ) : IsHexNumeral (Text.numeral 16 n) n := by
  have h := isHexNumeral_text (digitsOf_ne_nil 16 n) fun d => lt_of_mem_digitsOf (by decide)
  rwa [value_digitsOf, ← numeral_eq (by decide)] at h

theorem length_numeral (n : ℕ) : (Text.numeral 16 n).length = (digitsOf 16 n).length := by
  rw [numeral_eq (by decide), text, List.length_map]

/-- No numeral of a number is shorter than the one that is written for it. -/
theorem length_numeral_le (h : IsHexNumeral u n) : (Text.numeral 16 n).length ≤ u.length := by
  obtain ⟨hne, ds, hmap, hvalue⟩ := h
  have hlen : u.length = ds.length := by
    rw [← List.length_map some, hmap, List.length_map]
  have hlt : ∀ d ∈ ds, d < 16 := by
    intro d hd
    have hmem : hexAlphabet[d]? ∈ u.map some := hmap ▸ List.mem_map_of_mem hd
    obtain ⟨c, -, hc⟩ := List.mem_map.1 hmem
    exact (List.getElem?_eq_some_iff.1 hc.symm).1
  rw [length_numeral, hlen, length_digitsOf_le_iff (by decide)
    (by rw [← hlen]; exact List.length_pos_iff.2 hne), ← Int.natCast_inj.1 hvalue]
  exact value_lt_pow (by decide) hlt

theorem length_numeral_of_head? (h : (Text.numeral 16 n).head? = some (CodePoint.ofChar '0')) :
    (Text.numeral 16 n).length = 1 := by
  have hzero : ∀ d < 16, CodePoint.ofChar d.digitChar = CodePoint.ofChar '0' → d = 0 := by decide
  rw [numeral_eq (by decide), text, List.head?_map, Option.map_eq_some_iff] at h
  obtain ⟨d, hd, hchar⟩ := h
  obtain rfl := hzero d (lt_of_mem_digitsOf (by decide) (List.mem_of_head? hd)) hchar
  rw [length_numeral, digitsOf_head hd]

end Numeral

namespace IntType

variable {t : IntType} {v : ℤ} {cast : Bool}

/-- The hexadecimal literal of some digits. A marked one is cast to the type, or has the suffix of a
`long`. -/
def hexLiteral (t : IntType) (marked : Bool) (digits : Text) : Text :=
  if marked then
    match t with
    | byte => Text.ofString "(byte) 0x" ++ digits
    | short => Text.ofString "(short) 0x" ++ digits
    | int => Text.ofString "(int) 0x" ++ digits
    | long => Text.ofString "0x" ++ digits ++ Text.ofString "L"
  else Text.ofString "0x" ++ digits

theorem numeral_hexadecimal : t.numeral .hexadecimal v = Text.ofString "0x"
    ++ if v < 0 then (hexDigits v).drop ((hexDigits v).length - 2 * t.bytes) else hexDigits v :=
  rfl

theorem number_hexadecimal {digits : Text}
    (h : t.numeral .hexadecimal v = Text.ofString "0x" ++ digits) :
    t.number .hexadecimal cast v = t.hexLiteral (cast || t.needsCast .hexadecimal v) digits := by
  unfold number hexLiteral
  rw [h]
  split_ifs
  · cases t <;> rfl
  · rfl

theorem literal_hexadecimal (hv : long.holds v) {digits : Text}
    (h : t.numeral .hexadecimal v = Text.ofString "0x" ++ digits) :
    t.width.literal .hexadecimal cast v
      = .ok (t.hexLiteral (cast || t.needsCast .hexadecimal v) digits) := by
  rw [literal_width .hexadecimal hv, ← number_hexadecimal h]
  rfl

theorem length_hexDigits (hv : long.holds v) (hneg : v < 0) : (hexDigits v).length = 16 := by
  -- The highest of the 64 bits is set, and so the highest digit is not zero.
  have hrange := holds_iff.1 hv
  have hlow : 16 ^ 15 ≤ (v % (2 * long.half)).toNat := by
    simp only [half] at hrange ⊢
    omega
  have hup : (v % (2 * long.half)).toNat < 16 ^ 16 := by
    simp only [half]
    omega
  rw [hexDigits, length_numeral]
  refine le_antisymm ((length_digitsOf_le_iff (by decide) (by decide)).2 hup) ?_
  by_contra hlt
  have := (length_digitsOf_le_iff (b := 16) (k := 15) (by decide) (by decide)).1
    (Nat.lt_succ_iff.1 (not_le.1 hlt))
  omega

theorem isHexNumeral_hexDigits (v : ℤ) : IsHexNumeral (hexDigits v) (v % 2 ^ 64) := by
  have h := isHexNumeral_numeral (v % (2 * long.half)).toNat
  rwa [Int.toNat_of_nonneg (Int.emod_nonneg _ (by decide)), two_mul_half] at h

theorem hexDigits_of_nonneg (hv : long.holds v) (h0 : 0 ≤ v) :
    hexDigits v = Text.numeral 16 v.toNat := by
  have hrange := holds_iff.1 hv
  rw [hexDigits, Int.emod_eq_of_lt h0 (by omega)]

theorem literal_of_nonneg (hv : long.holds v) (h0 : 0 ≤ v) :
    t.width.literal .hexadecimal cast v
      = .ok (t.hexLiteral (cast || (t = .long && !int.holds v)) (hexDigits v)) := by
  have hcast : t.needsCast .hexadecimal v = (t = .long && !int.holds v) := by
    simp [needsCast, h0]
  rw [literal_hexadecimal hv (by rw [numeral_hexadecimal, if_neg (not_lt.2 h0)]), hcast]

theorem exists_literal_of_neg (hv : long.holds v) (hneg : v < 0) :
    ∃ digits, t.width.literal .hexadecimal cast v = .ok (t.hexLiteral true digits)
      ∧ digits.length = 2 * t.bytes ∧ IsHexNumeral digits (v % 2 ^ (8 * t.bytes)) := by
  obtain ⟨ds, hne, hlt, hvalue, hnumeral⟩ := value_hexDigits (t := t) (v := v)
  refine ⟨text ds, ?_, ?_, ?_⟩
  · have hcast : t.needsCast .hexadecimal v = true := by simp [needsCast, hneg]
    rw [literal_hexadecimal hv hnumeral, hcast, Bool.or_true]
  · have hlen := congrArg List.length hnumeral
    have hbytes : 2 * t.bytes ≤ 16 := by cases t <;> decide
    rw [numeral_hexadecimal, if_pos hneg] at hlen
    simp only [List.length_append, List.length_drop, length_hexDigits hv hneg] at hlen
    omega
  · have h := isHexNumeral_text hne hlt
    rwa [hvalue, hexMagnitude, if_pos hneg, two_mul_half,
      Int.toNat_of_nonneg (Int.emod_nonneg _ (by positivity))] at h

/-- **The digits of a hexadecimal literal.** A value of 64 bits has digits, which denote it modulo
`2 ^ 64` and have no zero in front that could be left out. In a literal a negative value has two
digits for each byte of the type, which denote it modulo the size of the type, and the literal is
marked whether a cast was asked for or not. Any other value has as few digits as can denote it,
whatever the type is. -/
theorem hexadecimal_digits (t : IntType) (cast : Bool) (v : ℤ) (hv : long.holds v) :
    (∃ digits, (checkedLong v).map hexDigits = .ok digits ∧ IsHexNumeral digits (v % 2 ^ 64)
        ∧ (digits.head? = some (CodePoint.ofChar '0') → digits.length = 1))
      ∧ (v < 0 → ∃ digits, t.width.literal .hexadecimal cast v = .ok (t.hexLiteral true digits)
        ∧ digits.length = 2 * t.bytes ∧ IsHexNumeral digits (v % 2 ^ (8 * t.bytes)))
      ∧ (0 ≤ v → ∃ digits, t.width.literal .hexadecimal cast v
          = .ok (t.hexLiteral (cast || (t = .long && !int.holds v)) digits)
        ∧ IsHexNumeral digits v ∧ ∀ u, IsHexNumeral u v → digits.length ≤ u.length) := by
  refine ⟨⟨hexDigits v, ?_, isHexNumeral_hexDigits v, length_numeral_of_head?⟩,
    exists_literal_of_neg hv, fun h0 => ⟨hexDigits v, literal_of_nonneg hv h0, ?_⟩⟩
  · rw [checkedLong, if_pos hv]
    rfl
  · have hvalue : (v.toNat : ℤ) = v := Int.toNat_of_nonneg h0
    have hself := isHexNumeral_numeral v.toNat
    rw [hvalue] at hself
    rw [hexDigits_of_nonneg hv h0]
    exact ⟨hself, fun u hu => length_numeral_le (by rwa [hvalue])⟩

/-- Two values out of the range of the type. The digits that the negative one keeps start with a
zero. -/
theorem hexadecimal_digits_farBelow :
    long.holds (-0x7FFFFFFFFFFFFFFB) ∧ (-0x7FFFFFFFFFFFFFFB : ℤ) < 0
      ∧ (∃ digits, byte.width.literal .hexadecimal false (-0x7FFFFFFFFFFFFFFB)
          = .ok (byte.hexLiteral true digits)
        ∧ digits.length = 2 * byte.bytes
        ∧ IsHexNumeral digits (-0x7FFFFFFFFFFFFFFB % 2 ^ (8 * byte.bytes)))
      ∧ long.holds 0x180 ∧ (0 : ℤ) ≤ 0x180
      ∧ ∃ digits, byte.width.literal .hexadecimal false 0x180
          = .ok (byte.hexLiteral (false || (byte = .long && !int.holds 0x180)) digits)
        ∧ IsHexNumeral digits 0x180 ∧ ∀ u, IsHexNumeral u 0x180 → digits.length ≤ u.length := by
  have hbelow : long.holds (-0x7FFFFFFFFFFFFFFB) := by decide
  have hpast : long.holds 0x180 := by decide
  exact ⟨hbelow, by decide, (hexadecimal_digits byte false _ hbelow).2.1 (by decide), hpast,
    by decide, (hexadecimal_digits byte false _ hpast).2.2 (by decide)⟩

example : byte.width.literal .hexadecimal false (-0x7FFFFFFFFFFFFFFB)
    = .ok (Text.ofString "(byte) 0x05") := by
  decide +kernel

end IntType

end JavaLiteral
