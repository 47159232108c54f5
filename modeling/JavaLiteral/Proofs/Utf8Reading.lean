import JavaLiteral.Text.Utf8
import Mathlib.Data.Nat.Notation
import Mathlib.Tactic.Common

/-!
# Reading UTF-8

The octets of a string are read as its characters (`Utf8.read_octets`). The reader goes octet by
octet, so the octets of one character are followed through it first (`decodeFrom_character`).
-/

namespace JavaLiteral.Utf8

/-- The octets of a string in UTF-8. -/
def octets (s : String) : List ℕ := s.toByteArray.data.toList.map UInt8.toNat

/-- The octets of a character in UTF-8. -/
def characterOctets (c : Char) : List ℕ := (String.utf8EncodeChar c).map UInt8.toNat

theorem octets_eq (s : String) : octets s = s.toList.flatMap characterOctets := by
  unfold octets
  rw [← String.utf8Encode_toList, List.utf8Encode, List.toList_data_toByteArray, List.map_flatMap]
  rfl

/-- The numbers of the octets of a character, by the size of its code. -/
theorem characterOctets_eq (c : Char) :
    characterOctets c =
      if c.toNat < 0x80 then [c.toNat]
      else if c.toNat < 0x800 then [c.toNat / 64 + 0xC0, c.toNat % 64 + 0x80]
      else if c.toNat < 0x10000 then
        [c.toNat / 4096 + 0xE0, c.toNat / 64 % 64 + 0x80, c.toNat % 64 + 0x80]
      else
        [c.toNat / 262144 + 0xF0, c.toNat / 4096 % 64 + 0x80, c.toNat / 64 % 64 + 0x80,
          c.toNat % 64 + 0x80] := by
  have hlt := CodePoint.toNat_lt c
  have hv : c.val.toNat = c.toNat := rfl
  unfold characterOctets String.utf8EncodeChar
  simp only [hv]
  generalize c.toNat = v at *
  split_ifs <;> simp <;> omega

section Steps

variable {place b : ℕ} {bs : List ℕ} {u : Unfinished}

theorem decodeFrom_lead (hb : 0x80 ≤ b) (hu : lead? b = some u) :
    decodeFrom place none (b :: bs) = decodeFrom (place + 1) (some u) bs := by
  rw [decodeFrom, if_neg (by omega), hu]

theorem decodeFrom_take (hb : u.least ≤ b ∧ b ≤ u.greatest) (hu : u.owed ≠ 1) :
    decodeFrom place (some u) (b :: bs) = decodeFrom (place + 1) (some (u.take b)) bs := by
  rw [decodeFrom, if_pos hb, if_neg hu]

theorem decodeFrom_last (hb : u.least ≤ b ∧ b ≤ u.greatest) (hu : u.owed = 1) :
    decodeFrom place (some u) (b :: bs)
      = (decodeFrom (place + 1) none bs).map
        (Decoded.push (CodePoint.ofNat? (u.value * 64 + (b - 0x80)))) := by
  rw [decodeFrom, if_pos hb, if_pos hu]
  rfl

theorem lead?_two {v : ℕ} (h : 0x80 ≤ v) (h' : v < 0x800) :
    lead? (v / 64 + 0xC0) = some ⟨[v / 64 + 0xC0], v / 64, 1, 0x80, 0xBF⟩ := by
  rw [lead?, if_pos (by omega), Nat.add_sub_cancel]

/-- The octet after the first of three never starts a surrogate or a shorter form. -/
theorem exists_lead?_three {v : ℕ} (h : 0x800 ≤ v) (h' : v < 0x10000)
    (hs : ¬(0xD800 ≤ v ∧ v ≤ 0xDFFF)) :
    ∃ least greatest, least ≤ v / 64 % 64 + 0x80 ∧ v / 64 % 64 + 0x80 ≤ greatest
      ∧ lead? (v / 4096 + 0xE0) = some ⟨[v / 4096 + 0xE0], v / 4096, 2, least, greatest⟩ := by
  unfold lead?
  rw [if_neg (by omega), Nat.add_sub_cancel]
  by_cases h0 : v / 4096 = 0
  · exact ⟨_, _, by omega, by omega, if_pos (by omega)⟩
  · rw [if_neg (by omega)]
    by_cases hD : v / 4096 = 0xD
    · exact ⟨_, _, by omega, by omega, if_pos (by omega)⟩
    · rw [if_neg (by omega)]
      exact ⟨_, _, by omega, by omega, if_pos (by omega)⟩

theorem exists_lead?_four {v : ℕ} (h : 0x10000 ≤ v) (h' : v < 0x110000) :
    ∃ least greatest, least ≤ v / 4096 % 64 + 0x80 ∧ v / 4096 % 64 + 0x80 ≤ greatest
      ∧ lead? (v / 262144 + 0xF0) = some ⟨[v / 262144 + 0xF0], v / 262144, 3, least, greatest⟩ := by
  unfold lead?
  rw [if_neg (by omega), if_neg (by omega), if_neg (by omega), if_neg (by omega),
    Nat.add_sub_cancel]
  by_cases h0 : v / 262144 = 0
  · exact ⟨_, _, by omega, by omega, if_pos (by omega)⟩
  · rw [if_neg (by omega)]
    by_cases h4 : v / 262144 = 4
    · exact ⟨_, _, by omega, by omega, if_pos (by omega)⟩
    · rw [if_neg (by omega)]
      exact ⟨_, _, by omega, by omega, if_pos (by omega)⟩

end Steps

theorem ofNat?_eq (c : Char) {n : ℕ} (h : n = c.toNat) :
    CodePoint.ofNat? n = some (CodePoint.ofChar c) :=
  CodePoint.ofNat?_eq_some.2 h.symm

/-- The octets of a character are read as the character, whatever follows them. -/
theorem decodeFrom_character (place : ℕ) (c : Char) (bs : List ℕ) :
    ∃ place', decodeFrom place none (characterOctets c ++ bs)
      = (decodeFrom place' none bs).map (Decoded.push (some (CodePoint.ofChar c))) := by
  have hlt := CodePoint.toNat_lt c
  have hvalid : ¬(0xD800 ≤ c.toNat ∧ c.toNat ≤ 0xDFFF) := by
    have h := c.valid
    simp only [UInt32.isValidChar, Nat.isValidChar] at h
    have hv : c.val.toNat = c.toNat := rfl
    omega
  rw [characterOctets_eq]
  split_ifs with h1 h2 h3
  · refine ⟨place + 1, ?_⟩
    rw [List.singleton_append, decodeFrom, if_pos h1, ofNat?_eq c rfl]
  · refine ⟨place + 1 + 1, ?_⟩
    rw [List.cons_append, List.singleton_append, decodeFrom_lead (by omega)
      (lead?_two (by omega) h2), decodeFrom_last ⟨by dsimp only; omega, by dsimp only; omega⟩ rfl,
      ofNat?_eq c (by dsimp only; omega)]
  · obtain ⟨least, greatest, hleast, hgreatest, hu⟩ := exists_lead?_three (by omega) h3 hvalid
    refine ⟨place + 1 + 1 + 1, ?_⟩
    rw [List.cons_append, List.cons_append, List.singleton_append, decodeFrom_lead (by omega) hu,
      decodeFrom_take ⟨hleast, hgreatest⟩ (show 2 ≠ 1 by decide), decodeFrom_last, ofNat?_eq c]
    all_goals simp only [Unfinished.take]
    all_goals omega
  · obtain ⟨least, greatest, hleast, hgreatest, hu⟩ := exists_lead?_four (by omega) hlt
    refine ⟨place + 1 + 1 + 1 + 1, ?_⟩
    rw [List.cons_append, List.cons_append, List.cons_append, List.singleton_append,
      decodeFrom_lead (by omega) hu, decodeFrom_take ⟨hleast, hgreatest⟩ (show 3 ≠ 1 by decide),
      decodeFrom_take, decodeFrom_last, ofNat?_eq c]
    all_goals simp only [Unfinished.take]
    all_goals omega

theorem decodeFrom_characters (place : ℕ) (cs : List Char) :
    decodeFrom place none (cs.flatMap characterOctets)
      = .ok ⟨cs.map CodePoint.ofChar, []⟩ := by
  induction cs generalizing place with
  | nil => rw [List.flatMap_nil, decodeFrom, List.map_nil]
  | cons c cs ih =>
    obtain ⟨place', h⟩ := decodeFrom_character place c (cs.flatMap characterOctets)
    rw [List.flatMap_cons, h, ih]
    rfl

/-- A file that holds a string in UTF-8 is read as the string. -/
theorem read_octets (s : String) : read (octets s) = ⟨Text.ofString s, none⟩ := by
  rw [read, decode, octets_eq, decodeFrom_characters]
  rfl

end JavaLiteral.Utf8
