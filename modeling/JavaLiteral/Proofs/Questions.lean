import JavaLiteral.Proofs.CharReading

/-!
# What a literal is made to depend on

A string literal asks about the code points from U+007F on, in order and as often as they occur, and
about none of them where all Unicode is escaped. A char literal asks about its code unless that has
a letter escape or is written as a Unicode escape anyway (`asked_charForm`). So two predicates that
agree on what was asked give the same literals, the same questions and the same errors
(`Text.asked_literal`).
-/

namespace JavaLiteral

namespace Consult

variable {α : Type} {p q : CodePoint → Bool}

/-- The result when `p` answers, and what `p` was asked for it. -/
def run (p : CodePoint → Bool) (x : Consult α) : α × List CodePoint := (x.answer p, x.asked p)

theorem run_congr (x : Consult α) (h : ∀ c ∈ x.asked p, p c = q c) : x.run p = x.run q := by
  obtain ⟨hanswer, hasked⟩ := answer_congr p q x h
  simp [run, hanswer, hasked]

end Consult

namespace CodePoint

/-- The codes that have a letter escape, the single quote among them. -/
def letterCodes : List ℕ := [0x08, 0x09, 0x0A, 0x0C, 0x0D, 0x22, 0x27, 0x5C]

variable {c : CodePoint}

theorem letterEscape?_eq_none_iff : c.letterEscape? = none ↔ c.val ∉ letterCodes := by
  simp only [letterEscape?, letterCodes, CodePoint.ext_iff, val_ofChar]
  split_ifs <;> simp_all

theorem asked_charForm (p : CodePoint → Bool) (escapeUnicode : Bool) (c : CodePoint) :
    (c.charForm escapeUnicode).asked p
      = if c.val ∈ letterCodes ∨ 0x7F ≤ c.val ∧ escapeUnicode then [] else [c] := by
  unfold charForm
  split
  · rename_i hquote
    simp [hquote, letterCodes]
  · split
    · rename_i t ht
      have hletter : c.val ∈ letterCodes := by
        by_contra hcon
        simp [letterEscape?_eq_none_iff.2 hcon] at ht
      simp [hletter]
    · rename_i hnone
      have hletter := letterEscape?_eq_none_iff.1 hnone
      split_ifs <;> simp_all [isBeyondAscii]

end CodePoint

namespace CharArgument

/-- The code point that the literal of an argument hinges on. It is the code of a unit, has no
letter escape and is not escaped anyway. -/
structure HingesOn (escapeUnicode : Bool) (a : CharArgument) (c : CodePoint) : Prop where
  standsFor : a.StandsFor c.val
  isUnit : c.val ≤ 0xFFFF
  noLetter : c.val ∉ CodePoint.letterCodes
  notEscaped : ¬(0x7F ≤ c.val ∧ escapeUnicode)

/-- What is asked for the literal of an argument, which is nothing if there is no literal. -/
def asked (p : CodePoint → Bool) (escapeUnicode cast : Bool) (a : CharArgument) :
    List CodePoint :=
  match a.literal escapeUnicode cast with
  | .ok x => x.asked p
  | .error _ => []

variable {a : CharArgument} {p : CodePoint → Bool} {escapeUnicode : Bool} {c : CodePoint}

theorem codePoint_eq_ok_iff : a.codePoint = .ok c ↔ a.StandsFor c.val ∧ c.val ≤ 0xFFFF := by
  refine ⟨fun h => ?_, fun h => codePoint_eq_ok c h.1 h.2⟩
  unfold codePoint at h
  cases hn : a.number with
  | error e => simp [hn, Bind.bind, Except.bind] at h
  | ok n =>
    simp only [hn, Bind.bind, Except.bind] at h
    split_ifs at h with hrange
    obtain rfl := Except.ok.inj h
    have hval : (n.toNat : ℤ) = n := Int.toNat_of_nonneg hrange.1
    refine ⟨?_, by simp only; omega⟩
    simpa only [hval] using number_eq_ok.1 hn

theorem hingesOn_iff : a.HingesOn escapeUnicode c ↔ a.codePoint = .ok c
    ∧ ¬(c.val ∈ CodePoint.letterCodes ∨ 0x7F ≤ c.val ∧ escapeUnicode) := by
  rw [codePoint_eq_ok_iff, not_or]
  constructor
  · rintro ⟨hstands, hunit, hletter, hescaped⟩
    exact ⟨⟨hstands, hunit⟩, hletter, hescaped⟩
  · rintro ⟨⟨hstands, hunit⟩, hletter, hescaped⟩
    exact ⟨hstands, hunit, hletter, hescaped⟩

theorem asked_of_codePoint (cast : Bool) (h : a.codePoint = .ok c) :
    a.asked p escapeUnicode cast
      = if c.val ∈ CodePoint.letterCodes ∨ 0x7F ≤ c.val ∧ escapeUnicode then [] else [c] := by
  simp [asked, literal, h, Bind.bind, Except.bind, CodePoint.asked_charForm]

theorem asked_of_error {e : CharError} (cast : Bool) (h : a.codePoint = .error e) :
    a.asked p escapeUnicode cast = [] := by
  simp [asked, literal_eq_error.2 h]

theorem length_asked_le (cast : Bool) : (a.asked p escapeUnicode cast).length ≤ 1 := by
  rcases h : a.codePoint with e | c
  · simp [asked_of_error cast h]
  · rw [asked_of_codePoint cast h]
    split_ifs <;> simp

theorem mem_asked (cast : Bool) :
    c ∈ a.asked p escapeUnicode cast ↔ a.HingesOn escapeUnicode c := by
  rw [hingesOn_iff]
  rcases h : a.codePoint with e | d
  · simp [asked_of_error cast h]
  · rw [asked_of_codePoint cast h, Except.ok.injEq]
    split_ifs with hd
    · refine iff_of_false List.not_mem_nil ?_
      rintro ⟨rfl, hcon⟩
      exact hcon hd
    · rw [List.mem_singleton]
      constructor
      · rintro rfl
        exact ⟨rfl, hd⟩
      · rintro ⟨rfl, -⟩
        rfl

theorem run_literal_congr {q : CodePoint → Bool} (cast : Bool)
    (h : ∀ c ∈ a.asked p escapeUnicode cast, p c = q c) :
    (a.literal escapeUnicode cast).map (Consult.run p)
      = (a.literal escapeUnicode cast).map (Consult.run q) := by
  unfold asked at h
  rcases hx : a.literal escapeUnicode cast with e | x
  · rfl
  · simp only [hx] at h
    exact congrArg Except.ok (Consult.run_congr x h)

end CharArgument

namespace Text

/-- **What is asked for a literal.** The literal of a text takes the answers for its code points
from U+007F on, the literal of a char the answer for the code point that it hinges on, and neither
one any other answer. So a predicate may be changed wherever it was not asked: the literals, the
questions and the errors stay the same. -/
theorem asked_literal (p : CodePoint → Bool) (escapeUnicode : Bool) :
    (∀ t : Text, (t.stringLiteral escapeUnicode).asked p
        = if escapeUnicode then [] else t.filter fun c => 0x7F ≤ c.val)
      ∧ (∀ cast (a : CharArgument), (a.asked p escapeUnicode cast).length ≤ 1
        ∧ ∀ c, c ∈ a.asked p escapeUnicode cast ↔ a.HingesOn escapeUnicode c)
      ∧ ∀ q : CodePoint → Bool,
        (∀ t : Text, (∀ c ∈ (t.stringLiteral escapeUnicode).asked p, p c = q c) →
          (t.stringLiteral escapeUnicode).run p = (t.stringLiteral escapeUnicode).run q)
        ∧ ∀ cast (a : CharArgument), (∀ c ∈ a.asked p escapeUnicode cast, p c = q c) →
          (a.literal escapeUnicode cast).map (Consult.run p)
            = (a.literal escapeUnicode cast).map (Consult.run q) := by
  refine ⟨fun t => ?_, fun cast a => ?_, fun q => ⟨fun t h => ?_, fun cast a h => ?_⟩⟩
  · rw [stringLiteral, Consult.asked_map, asked_escapedBody]
    cases escapeUnicode <;> simp [CodePoint.isBeyondAscii]
  · exact ⟨CharArgument.length_asked_le cast, fun c => CharArgument.mem_asked cast⟩
  · exact Consult.run_congr _ h
  · exact CharArgument.run_literal_congr cast h

/-- A letter between two soft hyphens, and a letter with an accent after them. -/
def hyphenated : Text :=
  [⟨0xAD, by decide⟩, CodePoint.ofChar 'a', ⟨0xAD, by decide⟩, ⟨0xE9, by decide⟩]

/-- A predicate that knows of a single letter, and is right about what it is asked here. -/
def isAcute (c : CodePoint) : Bool := c.val = 0xE9

theorem asked_literal_hyphenated :
    (∀ c ∈ (hyphenated.stringLiteral false).asked CodePoint.isPrintable,
        c.isPrintable = isAcute c)
      ∧ (∀ c ∈ CharArgument.asked CodePoint.isPrintable false true (.code 0xAD),
        c.isPrintable = isAcute c)
      ∧ (hyphenated.stringLiteral false).run CodePoint.isPrintable
        = (hyphenated.stringLiteral false).run isAcute
      ∧ ((CharArgument.code 0xAD).literal false true).map (Consult.run CodePoint.isPrintable)
        = ((CharArgument.code 0xAD).literal false true).map (Consult.run isAcute) := by
  have htext : ∀ c ∈ (hyphenated.stringLiteral false).asked CodePoint.isPrintable,
      c.isPrintable = isAcute c := by decide +kernel
  have hchar : ∀ c ∈ CharArgument.asked CodePoint.isPrintable false true (.code 0xAD),
      c.isPrintable = isAcute c := by decide +kernel
  obtain ⟨-, -, hcongr⟩ := asked_literal CodePoint.isPrintable false
  exact ⟨htext, hchar, (hcongr isAcute).1 hyphenated htext, (hcongr isAcute).2 true _ hchar⟩

end Text

end JavaLiteral
