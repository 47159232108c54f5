import JavaLiteral.Proofs.Questions
import JavaLiteral.Proofs.ReadableLiterals

/-!
# A char and the text of one character

The literal of a char and that of the text of this one character look at its range, at the switch
for Unicode escapes and at the predicate in different orders, and they fall back to different
notations. They agree all the same if the predicate is right about ASCII: what stands between the
quotes of the char stands between the quotes of the text, and a char without a quoted form is the
number that the text has an escape for (`CharArgument.literal_agrees`). Only the single quote is
escaped in one of them and not in the other.
-/

namespace JavaLiteral

namespace CodePoint

/-- The predicate refuses the controls up to the blank and allows all other characters of ASCII
before U+007F. -/
structure KnowsAscii (p : CodePoint → Bool) : Prop where
  control : ∀ c, c.val < 0x20 → p c = false
  graphic : ∀ c, c.IsGraphic → p c = true

theorem knowsAscii_isPrintable : KnowsAscii isPrintable where
  control c hc := by
    have hcontrol : c.isControl := by simp [isControl]; omega
    simp [isPrintable, hcontrol]
  graphic _ hc := hc.isPrintable

/-- A char with no quoted form: a control without a letter, or a character from U+007F on that is
neither escaped nor printable. -/
def IsFormless (p : CodePoint → Bool) (escapeUnicode : Bool) (c : CodePoint) : Prop :=
  c.val < 0x20 ∧ c.val ∉ letterCodes ∨ 0x7F ≤ c.val ∧ escapeUnicode = false ∧ p c = false

variable {p : CodePoint → Bool} (escapeUnicode : Bool) {c : CodePoint} {t : Text}

theorem forms_of_letterEscape? (hquote : c ≠ '\'') (h : c.letterEscape? = some t) :
    (c.charForm escapeUnicode).answer p = .quoted t ∧ (c.escaped escapeUnicode).answer p = t
      ∧ ¬c.IsFormless p escapeUnicode := by
  have hletter : c.val ∈ letterCodes := by
    by_contra hcon
    simp [letterEscape?_eq_none_iff.2 hcon] at h
  have hascii : ¬0x7F ≤ c.val := by
    intro hbeyond
    simp [letterEscape?_eq_none_of_isBeyondAscii (decide_eq_true hbeyond)] at h
  refine ⟨?_, ?_, ?_⟩
  · simp [charForm, hquote, h]
  · simp [escaped, h]
  · rintro (⟨-, hcon⟩ | ⟨hcon, -⟩)
    · exact hcon hletter
    · exact hascii hcon

theorem forms_of_control (hp : KnowsAscii p) (hquote : c ≠ '\'') (h : c.letterEscape? = none)
    (hc : c.val < 0x20) :
    (c.charForm escapeUnicode).answer p = .number c.val
      ∧ (c.escaped escapeUnicode).answer p = c.unicodeEscape := by
  have hascii : c.isBeyondAscii = false := decide_eq_false (by omega)
  simp [charForm, escaped, hquote, h, hc, hascii, hp.control c hc]

theorem forms_of_graphic (hp : KnowsAscii p) (hquote : c ≠ '\'') (h : c.letterEscape? = none)
    (hc : c.IsGraphic) :
    (c.charForm escapeUnicode).answer p = .quoted [c]
      ∧ (c.escaped escapeUnicode).answer p = [c] := by
  obtain ⟨hlow, hup⟩ := id hc
  have hascii : c.isBeyondAscii = false := decide_eq_false (by omega)
  simp [charForm, escaped, hquote, h, not_lt.2 hlow, hascii, hp.graphic c hc]

/-- From U+007F on both forms hang on the switch and on the predicate in the same way. -/
theorem forms_of_beyondAscii (hquote : c ≠ '\'') (h : c.letterEscape? = none)
    (hc : 0x7F ≤ c.val) :
    (c.charForm escapeUnicode).answer p
        = (if escapeUnicode = false ∧ p c = false then .number c.val
          else .quoted ((c.escaped escapeUnicode).answer p))
      ∧ (escapeUnicode = false ∧ p c = false →
        (c.escaped escapeUnicode).answer p = c.unicodeEscape) := by
  have hascii : c.isBeyondAscii = true := decide_eq_true hc
  have hlow : ¬c.val < 0x20 := by omega
  cases escapeUnicode <;> cases hpc : p c <;>
    simp [charForm, escaped, hquote, h, hlow, hascii, hpc]

/-- A char is quoted as it is written in a text, or it is a number and the text has the Unicode
escape of it. -/
theorem forms_cases (hp : KnowsAscii p) (hquote : c ≠ '\'') :
    ((c.charForm escapeUnicode).answer p = .quoted ((c.escaped escapeUnicode).answer p)
        ∧ ¬c.IsFormless p escapeUnicode)
      ∨ (c.charForm escapeUnicode).answer p = .number c.val
        ∧ (c.escaped escapeUnicode).answer p = c.unicodeEscape
        ∧ c.IsFormless p escapeUnicode := by
  rcases hletter : c.letterEscape? with _ | t
  · have hcode := letterEscape?_eq_none_iff.1 hletter
    rcases lt_or_ge c.val 0x20 with hlow | hlow
    · obtain ⟨hform, hescaped⟩ := forms_of_control escapeUnicode hp hquote hletter hlow
      exact .inr ⟨hform, hescaped, .inl ⟨hlow, hcode⟩⟩
    · rcases lt_or_ge c.val 0x7F with hup | hup
      · obtain ⟨hform, hescaped⟩ := forms_of_graphic escapeUnicode hp hquote hletter
          ⟨hlow, by omega⟩
        refine .inl ⟨by rw [hform, hescaped], ?_⟩
        rintro (⟨hcon, -⟩ | ⟨hcon, -⟩) <;> omega
      · obtain ⟨hform, hescaped⟩ := forms_of_beyondAscii (p := p) escapeUnicode hquote hletter hup
        split_ifs at hform with hcond
        · exact .inr ⟨hform, hescaped hcond, .inr ⟨hup, hcond⟩⟩
        · refine .inl ⟨hform, ?_⟩
          rintro (⟨hcon, -⟩ | ⟨-, hcon⟩)
          · omega
          · exact hcond hcon
  · obtain ⟨hform, hescaped, hnot⟩ := forms_of_letterEscape? (p := p) escapeUnicode hquote hletter
    exact .inl ⟨by rw [hform, hescaped], hnot⟩

end CodePoint

namespace CharForm

theorem numeral_injective : Function.Injective (Text.numeral 10) := by
  intro m n h
  have hchar : Function.Injective CodePoint.ofChar := fun a b hab =>
    Char.toNat_inj.1 (congrArg CodePoint.val hab)
  have hdigits : Nat.toDigits 10 m = Nat.toDigits 10 n := hchar.list_map h
  rw [← Nat.ofDigitChars_ten_toDigits (n := m), hdigits, Nat.ofDigitChars_ten_toDigits]

theorem head?_numeral (n : ℕ) :
    (Text.numeral 10 n).head? ≠ some '\'' ∧ (Text.numeral 10 n).head? ≠ some '(' := by
  have hne : ∀ d < 10, CodePoint.ofChar d.digitChar ≠ '\''
      ∧ CodePoint.ofChar d.digitChar ≠ '(' := by
    decide
  obtain ⟨d, ds, hds⟩ := List.exists_cons_of_ne_nil (Digits.digitsOf_ne_nil 10 n)
  have hd : d < 10 := Digits.lt_of_mem_digitsOf (n := n) (by decide) (by simp [hds])
  rw [Digits.numeral_eq (by decide), hds]
  simpa [Digits.text] using hne d hd

variable {f g : CharForm} {b : Text} {n : ℕ} {k k' : Bool}

theorem render_quoted_ne (b : Text) (n : ℕ) (k k' : Bool) :
    (quoted b).render k ≠ (number n).render k' := by
  intro h
  have hhead : ((number n).render k').head? = some '\'' := by rw [← h]; rfl
  cases k'
  · exact (head?_numeral n).1 hhead
  · exact absurd (Option.some.inj hhead) (by decide)

theorem eq_of_render_number {m : ℕ} (h : (number m).render k = (number n).render k') :
    m = n ∧ k = k' := by
  have hcast : ∀ i j : ℕ, (number i).render true ≠ (number j).render false := by
    intro i j h
    exact (head?_numeral j).2 (congrArg List.head? h).symm
  cases k <;> cases k'
  · exact ⟨numeral_injective h, rfl⟩
  · exact absurd h.symm (hcast n m)
  · exact absurd h (hcast m n)
  · exact ⟨numeral_injective (List.append_cancel_left h), rfl⟩

end CharForm

namespace CharArgument

/-- The literal of a char beside what stands between the quotes of a text of this one character. -/
structure Agrees (p : CodePoint → Bool) (escapeUnicode cast : Bool) (c : CodePoint)
    (literal body : Text) : Prop where
  quoted_or_number : (∃ b, literal = (CharForm.quoted b).render cast)
    ∨ ∃ n, literal = (CharForm.number n).render cast
  eq_body : ∀ b k, literal = (CharForm.quoted b).render k → b = body
  number_iff : (∃ n k, literal = (CharForm.number n).render k) ↔ c.IsFormless p escapeUnicode
  eq_escape : ∀ n k, literal = (CharForm.number n).render k → k = cast
    ∧ ∃ ds, ds.length = 4 ∧ (∀ d ∈ ds, d < 16) ∧ Digits.value 16 ds = n
      ∧ body = Text.ofString "\\u" ++ Digits.text ds

variable {p : CodePoint → Bool} {escapeUnicode cast : Bool} {c : CodePoint}

theorem exists_unicodeEscape_eq (h : c.val ≤ 0xFFFF) :
    ∃ ds, ds.length = 4 ∧ (∀ d ∈ ds, d < 16) ∧ Digits.value 16 ds = c.val
      ∧ c.unicodeEscape = Text.ofString "\\u" ++ Digits.text ds := by
  have hlt : c.val < 0x10000 := by omega
  refine ⟨Source.unitDigits c.val, rfl, ?_, ?_, ?_⟩
  · simp only [Source.unitDigits, List.mem_cons, List.not_mem_nil, or_false]
    rintro d (rfl | rfl | rfl | rfl) <;> exact Nat.mod_lt _ (by decide)
  · simp only [Digits.value, Source.unitDigits, List.reverse_cons, List.reverse_nil,
      List.nil_append, List.cons_append, Nat.ofDigits_cons, Nat.ofDigits_nil]
    omega
  · rw [CodePoint.unicodeEscape, if_pos hlt, CodePoint.unitEscape, Source.paddedNumeral_eq hlt]
    rfl

theorem agrees_of_forms (hunit : c.val ≤ 0xFFFF) {form : CharForm} {body : Text}
    (h : form = .quoted body ∧ ¬c.IsFormless p escapeUnicode
      ∨ form = .number c.val ∧ body = c.unicodeEscape ∧ c.IsFormless p escapeUnicode) :
    Agrees p escapeUnicode cast c (form.render cast) body := by
  rcases h with ⟨rfl, hform⟩ | ⟨rfl, rfl, hform⟩
  · have hnot : ∀ n k, (CharForm.quoted body).render cast ≠ (CharForm.number n).render k :=
      fun n k => CharForm.render_quoted_ne body n cast k
    refine ⟨.inl ⟨body, rfl⟩, fun b k hb => ?_, ?_, fun n k hn => absurd hn (hnot n k)⟩
    · simpa [CharForm.render] using hb.symm
    · refine iff_of_false ?_ hform
      rintro ⟨n, k, hn⟩
      exact hnot n k hn
  · refine ⟨.inr ⟨c.val, rfl⟩, fun b k hb => ?_, iff_of_true ⟨c.val, cast, rfl⟩ hform,
      fun n k hn => ?_⟩
    · exact absurd hb.symm (CharForm.render_quoted_ne b c.val k cast)
    · obtain ⟨rfl, rfl⟩ := CharForm.eq_of_render_number hn
      exact ⟨rfl, exists_unicodeEscape_eq hunit⟩

/-- **A char is written as in a text.** The default predicate is right about ASCII. For every
predicate that is, and every argument that stands for the code of a unit other than the single
quote, the char has a literal. If this is a quoted form, the text of this one character has the same
between its quotes. It is a number exactly if the char is a control without a letter, or from U+007F
on neither escaped nor printable, and then the text has a single Unicode escape between its quotes,
whose four digits have the number as their value. -/
theorem literal_agrees :
    CodePoint.KnowsAscii CodePoint.isPrintable
      ∧ ∀ (p : CodePoint → Bool) (escapeUnicode cast : Bool) (a : CharArgument) (c : CodePoint),
        CodePoint.KnowsAscii p → a.StandsFor c.val → c.val ≤ 0xFFFF → c ≠ '\'' →
        ∃ literal body, (a.literal escapeUnicode cast).map (Consult.answer p) = .ok literal
          ∧ (Text.stringLiteral escapeUnicode [c]).answer p
            = CodePoint.ofChar '"' :: body ++ [CodePoint.ofChar '"']
          ∧ Agrees p escapeUnicode cast c literal body := by
  refine ⟨CodePoint.knowsAscii_isPrintable, fun p escapeUnicode cast a c hp hc hunit hquote => ?_⟩
  refine ⟨_, (c.escaped escapeUnicode).answer p,
    answer_literal (codePoint_eq_ok c hc hunit) escapeUnicode cast p, ?_,
    agrees_of_forms hunit ?_⟩
  · simp [Text.stringLiteral, Text.escapedBody]
  · rcases CodePoint.forms_cases escapeUnicode hp hquote with h | ⟨hform, hescaped, hcond⟩
    · exact .inl h
    · exact .inr ⟨hform, hescaped, hcond⟩

/-- The soft hyphen, which is no printable character. -/
def softHyphen : CodePoint := CodePoint.ofChar (Char.ofNat 0xAD)

theorem literal_agrees_softHyphen :
    CodePoint.KnowsAscii CodePoint.isPrintable ∧ (code 0xAD).StandsFor softHyphen.val
      ∧ softHyphen.val ≤ 0xFFFF ∧ softHyphen ≠ '\''
      ∧ Agrees CodePoint.isPrintable false true softHyphen (Text.ofString "(char) 173")
        (Text.ofString "\\u00ad") := by
  have hstands : (code 0xAD).StandsFor softHyphen.val := .code _
  obtain ⟨hp, hagrees⟩ := literal_agrees
  obtain ⟨literal, body, hliteral, hbody, h⟩ :=
    hagrees CodePoint.isPrintable false true (code 0xAD) softHyphen hp hstands (by decide)
      (by decide)
  have hchar : ((code 0xAD).literal false true).map (Consult.answer CodePoint.isPrintable)
      = .ok (Text.ofString "(char) 173") := by decide +kernel
  have hstring : (Text.stringLiteral false [softHyphen]).answer CodePoint.isPrintable
      = CodePoint.ofChar '"' :: Text.ofString "\\u00ad" ++ [CodePoint.ofChar '"'] := by
    decide +kernel
  obtain rfl : literal = Text.ofString "(char) 173" := Except.ok.inj (hliteral.symm.trans hchar)
  obtain rfl : body = Text.ofString "\\u00ad" :=
    (List.cons.inj (List.append_cancel_right (hbody.symm.trans hstring))).2
  exact ⟨hp, hstands, by decide, by decide, h⟩

end CharArgument

end JavaLiteral
