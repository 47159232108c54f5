import JavaLiteral.Text
import Mathlib.Tactic.Common

/-!
# The Unicode escapes of a source text

Java first replaces each Unicode escape of a source text by the UTF-16 unit it names. A backslash
(U+005C) can start one only if an even number of backslashes stands directly before it, and then
the `u`s (U+0075) after it have to be followed by four hexadecimal digits (`translateFrom`). Every
input character keeps the units it was written with, so no unit of the source is lost
(`raw_translate`), and the escapes this library writes are read as the unit they name
(`translateFrom_unitEscape`).
-/

namespace JavaLiteral

namespace Source

/-- A unit after translation, and the units of the source that it was written with. -/
structure InputCharacter where
  unit : ℕ
  raw : List ℕ
deriving DecidableEq

/-- The input characters of a source up to a malformed Unicode escape, and the units from there
on. -/
@[ext]
structure Translation where
  characters : List InputCharacter
  untranslated : List ℕ
deriving DecidableEq

namespace Translation

/-- The translation with input characters in front. -/
def after (cs : List InputCharacter) (T : Translation) : Translation :=
  ⟨cs ++ T.characters, T.untranslated⟩

/-- The units of the source that is translated. -/
def raw (T : Translation) : List ℕ :=
  T.characters.flatMap InputCharacter.raw ++ T.untranslated

@[simp] theorem characters_after (cs : List InputCharacter) (T : Translation) :
    (T.after cs).characters = cs ++ T.characters := rfl

@[simp] theorem untranslated_after (cs : List InputCharacter) (T : Translation) :
    (T.after cs).untranslated = T.untranslated := rfl

@[simp] theorem after_nil (T : Translation) : T.after [] = T := rfl

@[simp] theorem after_after (cs ds : List InputCharacter) (T : Translation) :
    (T.after ds).after cs = T.after (cs ++ ds) := by
  simp [after]

@[simp] theorem raw_after (cs : List InputCharacter) (T : Translation) :
    (T.after cs).raw = cs.flatMap InputCharacter.raw ++ T.raw := by
  simp [raw]

end Translation

/-- The value of a hexadecimal digit in either case. -/
def hexDigit? (u : ℕ) : Option ℕ :=
  if 0x30 ≤ u ∧ u ≤ 0x39 then some (u - 0x30)
  else if 0x41 ≤ u ∧ u ≤ 0x46 then some (u - 0x37)
  else if 0x61 ≤ u ∧ u ≤ 0x66 then some (u - 0x57)
  else none

/-- The unit that four hexadecimal digits name. -/
def hexUnit? : List ℕ → Option ℕ
  | [a, b, c, d] => do
    some (0x1000 * (← hexDigit? a) + 0x100 * (← hexDigit? b) + 0x10 * (← hexDigit? c)
      + (← hexDigit? d))
  | _ => none

/-- The translation of what follows a place before which the number of backslashes is odd or
even. -/
def translateFrom (odd : Bool) : List ℕ → Translation
  | [] => ⟨[], []⟩
  | u :: s =>
    if u ≠ 0x5C then (translateFrom false s).after [⟨u, [u]⟩]
    else if odd ∨ s.head? ≠ some 0x75 then (translateFrom (!odd) s).after [⟨u, [u]⟩]
    else
      let rest := s.dropWhile (· = 0x75)
      match hexUnit? (rest.take 4) with
      | some v =>
        (translateFrom false (rest.drop 4)).after
          [⟨v, u :: s.takeWhile (· = 0x75) ++ rest.take 4⟩]
      | none => ⟨[], u :: s⟩
termination_by s => s.length
decreasing_by
  · simp
  · simp
  · have := (List.dropWhile_sublist (l := s) (· = 0x75)).length_le
    simp only [List.length_drop, List.length_cons]
    omega

/-- The translation of a source text. -/
def translate (s : List ℕ) : Translation := translateFrom false s

theorem raw_translateFrom (odd : Bool) (s : List ℕ) : (translateFrom odd s).raw = s := by
  fun_induction translateFrom odd s with
  | case1 => rfl
  | case2 odd u s hu ih => simp [ih]
  | case3 odd u s hu h ih => simp [ih]
  | case4 odd u s hu h rest v hv ih =>
    rw [Translation.raw_after, ih]
    simp only [List.flatMap_cons, List.flatMap_nil, List.append_nil, List.cons_append,
      List.append_assoc, List.take_append_drop]
    rw [show rest = s.dropWhile _ from rfl, List.takeWhile_append_dropWhile]
  | case5 odd u s hu h rest hv => simp [Translation.raw]

theorem raw_translate (s : List ℕ) : (translate s).raw = s := raw_translateFrom false s

theorem translateFrom_of_ne {u : ℕ} (h : u ≠ 0x5C) (odd : Bool) (s : List ℕ) :
    translateFrom odd (u :: s) = (translateFrom false s).after [⟨u, [u]⟩] := by
  rw [translateFrom, if_pos h]

theorem translateFrom_backslash {v : ℕ} (hv : v ≠ 0x75) (s : List ℕ) :
    translateFrom false (0x5C :: v :: s)
      = (translateFrom true (v :: s)).after [⟨0x5C, [0x5C]⟩] := by
  rw [translateFrom, if_neg (by simp), if_pos (by simp [hv])]
  rfl

theorem translateFrom_true_backslash (s : List ℕ) :
    translateFrom true (0x5C :: s)
      = (translateFrom false s).after [⟨0x5C, [0x5C]⟩] := by
  rw [translateFrom, if_neg (by simp), if_pos (by simp)]
  rfl

theorem translateFrom_escape {a b c d v : ℕ} (hv : hexUnit? [a, b, c, d] = some v)
    (ha : a ≠ 0x75) (s : List ℕ) :
    translateFrom false (0x5C :: 0x75 :: a :: b :: c :: d :: s)
      = (translateFrom false s).after [⟨v, [0x5C, 0x75, a, b, c, d]⟩] := by
  have hdrop : (0x75 :: a :: b :: c :: d :: s).dropWhile (· = 0x75)
      = a :: b :: c :: d :: s := by
    simp [ha]
  have htake : (0x75 :: a :: b :: c :: d :: s).takeWhile (· = 0x75) = [0x75] := by
    simp [ha]
  rw [translateFrom, if_neg (by simp), if_neg (by simp), hdrop, htake]
  simp [hv]

/-- A backslash and a character that starts no Unicode escape with it are kept, whatever follows
them. -/
theorem translateFrom_letter {u : ℕ} (hu : u ≠ 0x75) (s : List ℕ) :
    translateFrom false (0x5C :: u :: s)
      = (translateFrom false s).after [⟨0x5C, [0x5C]⟩, ⟨u, [u]⟩] := by
  rw [translateFrom_backslash hu]
  by_cases hb : u = 0x5C
  · rw [hb, translateFrom_true_backslash, Translation.after_after]
    rfl
  · rw [translateFrom_of_ne hb, Translation.after_after]
    rfl

/-- The digits of a unit in its Unicode escape. -/
def unitDigits (u : ℕ) : List ℕ :=
  [u / 0x1000 % 16, u / 0x100 % 16, u / 0x10 % 16, u % 16]

theorem hexDigit?_digitChar : ∀ d < 16, hexDigit? d.digitChar.toNat = some d := by
  decide

theorem digitChar_ne_u : ∀ d < 16, d.digitChar.toNat ≠ 0x75 := by
  decide

theorem paddedNumeral_eq {u : ℕ} (hu : u < 0x10000) :
    Text.paddedNumeral 16 4 u
      = (unitDigits u).map fun d => CodePoint.ofChar d.digitChar := by
  unfold Text.paddedNumeral Text.numeral unitDigits
  rcases Nat.lt_or_ge u 0x10 with h1 | h1
  · rw [Nat.toDigits_of_lt_base h1, show u / 0x1000 = 0 by omega, show u / 0x100 = 0 by omega,
      show u / 0x10 = 0 by omega, show u % 16 = u by omega]
    rfl
  rw [Nat.toDigits_of_base_le (by omega) h1]
  rcases Nat.lt_or_ge u 0x100 with h2 | h2
  · rw [Nat.toDigits_of_lt_base (by omega), show u / 0x1000 = 0 by omega,
      show u / 0x100 = 0 by omega, show u / 0x10 % 16 = u / 16 by omega]
    rfl
  rw [Nat.toDigits_of_base_le (by omega) (by omega)]
  rcases Nat.lt_or_ge u 0x1000 with h3 | h3
  · rw [Nat.toDigits_of_lt_base (by omega), show u / 0x1000 = 0 by omega,
      show u / 0x100 % 16 = u / 16 / 16 by omega]
    rfl
  rw [Nat.toDigits_of_base_le (by omega) (by omega), Nat.toDigits_of_lt_base (by omega),
    show u / 0x1000 % 16 = u / 16 / 16 / 16 by omega, show u / 0x100 = u / 16 / 16 by omega]
  rfl

theorem units_ofChar_digitChar {d : ℕ} (hd : d < 16) :
    (CodePoint.ofChar d.digitChar).units = [d.digitChar.toNat] :=
  CodePoint.units_of_lt (by
    have : ∀ d < 16, d.digitChar.toNat < 0x10000 := by decide
    exact this d hd)

theorem units_unitEscape {u : ℕ} (hu : u < 0x10000) :
    Text.units (CodePoint.unitEscape u)
      = 0x5C :: 0x75 :: (unitDigits u).map fun d => d.digitChar.toNat := by
  have hs : Text.units (Text.ofString "\\u") = [0x5C, 0x75] := by decide
  rw [CodePoint.unitEscape, Text.units_append, hs, paddedNumeral_eq hu]
  simp [unitDigits, units_ofChar_digitChar (Nat.mod_lt _ (by decide : 0 < 16))]

theorem hexUnit?_unitDigits {u : ℕ} (hu : u < 0x10000) :
    hexUnit? ((unitDigits u).map fun d => d.digitChar.toNat) = some u := by
  have h := fun n : ℕ => hexDigit?_digitChar (n % 16) (Nat.mod_lt _ (by decide))
  simp only [unitDigits, List.map_cons, List.map_nil, hexUnit?, h, Option.bind_eq_bind,
    Option.bind_some, Option.some.injEq]
  omega

/-- The Unicode escape of a unit is translated into that unit, whatever follows. -/
theorem translateFrom_unitEscape {u : ℕ} (hu : u < 0x10000) (s : List ℕ) :
    translateFrom false (Text.units (CodePoint.unitEscape u) ++ s)
      = (translateFrom false s).after [⟨u, Text.units (CodePoint.unitEscape u)⟩] := by
  have hv := hexUnit?_unitDigits hu
  rw [units_unitEscape hu]
  exact translateFrom_escape hv (digitChar_ne_u _ (Nat.mod_lt _ (by decide))) s

end Source

end JavaLiteral
