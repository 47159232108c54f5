import JavaLiteral.Escape.Identifier
import Mathlib.Tactic.Common

/-!
# Which names become legal identifiers

Every character of a name stands for at most one character of its identifier, and a mark only for
one that is no mark (`CodePoint.identifierPart_cases`). So an identifier holds no mark and is its
own identifier. What it starts with comes from the first character that is not dropped, and may have
been no start before. Whether it is legal therefore shows in the name
(`Text.identifier_isLegal_iff`), and dropped characters may leave nothing at all.
-/

namespace JavaLiteral

/-- The characters that an identifier may start with, and those that it may consist of. Of the marks
of a name at most the dollar sign is among them. -/
structure IdentifierAlphabet where
  start : CodePoint → Prop
  part : CodePoint → Prop
  part_of_start : ∀ c, start c → part c
  start_underscore : start '_'
  start_letter : start 'A'
  eq_dollar_of_part : ∀ c, c.isNameMark → part c → c = '$'

namespace CodePoint

variable {c d : CodePoint}

theorem isNameMark_of_isNameClosing (h : c.isNameClosing) : c.isNameMark := by
  simp [isNameMark, h]

/-- A character is dropped, or it is another mark and becomes an underscore or the letter A, or it
is no mark and is kept. -/
theorem identifierPart_cases (c : CodePoint) :
    (c.isNameClosing ∧ c.identifierPart = [])
      ∨ (c.isNameClosing = false ∧ c.isNameMark
        ∧ (c.identifierPart = [CodePoint.ofChar '_'] ∨ c.identifierPart = [CodePoint.ofChar 'A']))
      ∨ (c.isNameClosing = false ∧ c.isNameMark = false ∧ c.identifierPart = [c]) := by
  by_cases hclosing : c.isNameClosing
  · left
    refine ⟨hclosing, ?_⟩
    have hdropped : ∀ d ∈ Text.ofString "]>?*", d.identifierPart = [] := by decide
    exact hdropped c (isNameClosing_iff.1 hclosing)
  · right
    rw [Bool.not_eq_true] at hclosing
    by_cases hseparator : c.isNameSeparator
    · exact .inl ⟨hclosing, by simp [isNameMark, hseparator], .inl (if_pos hseparator)⟩
    · by_cases hbracket : c = '['
      · exact .inl ⟨hclosing, by simp [isNameMark, hbracket], .inr (by subst hbracket; decide)⟩
      · exact .inr ⟨hclosing, by simp [isNameMark, hseparator, hbracket, hclosing],
          by simp [identifierPart, hseparator, hbracket, hclosing]⟩

theorem isNameMark_eq_false_of_mem (h : d ∈ c.identifierPart) : d.isNameMark = false := by
  have hnew : (ofChar '_').isNameMark = false ∧ (ofChar 'A').isNameMark = false := by decide
  rcases c.identifierPart_cases with ⟨-, hpart⟩ | ⟨-, -, hpart | hpart⟩ | ⟨-, hmark, hpart⟩ <;>
    simp only [hpart, List.mem_singleton, List.not_mem_nil] at h <;> subst h
  · exact hnew.1
  · exact hnew.2
  · exact hmark

variable (A : IdentifierAlphabet)

theorem forall_part_identifierPart (c : CodePoint) :
    (∀ d ∈ c.identifierPart, A.part d) ↔ (c.isNameMark = false → A.part c) := by
  rcases c.identifierPart_cases with ⟨hclosing, hpart⟩ | ⟨-, hmark, hpart | hpart⟩ |
    ⟨-, hmark, hpart⟩
  · simp [hpart, isNameMark_of_isNameClosing hclosing]
  · simp [hpart, hmark, A.part_of_start _ A.start_underscore]
  · simp [hpart, hmark, A.part_of_start _ A.start_letter]
  · simp [hpart, hmark]

theorem exists_start_head?_identifierPart (hclosing : c.isNameClosing = false) :
    (∃ d ∈ c.identifierPart.head?, A.start d) ↔ c.isNameMark ∨ A.start c := by
  rcases c.identifierPart_cases with ⟨hcon, -⟩ | ⟨-, hmark, hpart | hpart⟩ | ⟨-, hmark, hpart⟩
  · simp [hclosing] at hcon
  · simp [hpart, hmark, A.start_underscore]
  · simp [hpart, hmark, A.start_letter]
  · simp [hpart, hmark]

end CodePoint

namespace Text

/-- A legal identifier: a text that is not empty, with a start in front and no other characters than
parts. -/
structure IsLegal (A : IdentifierAlphabet) (t : Text) : Prop where
  ne_nil : t ≠ []
  start_head : ∀ c ∈ t.head?, A.start c
  part_mem : ∀ c ∈ t, A.part c

variable {A : IdentifierAlphabet} {t : Text} {c : CodePoint}

theorem isLegal_iff : t.IsLegal A ↔ (∀ c ∈ t, A.part c) ∧ ∃ c ∈ t.head?, A.start c := by
  rcases t with _ | ⟨c, t⟩
  · exact iff_of_false (fun h => h.ne_nil rfl) (by simp)
  · constructor
    · rintro ⟨-, hstart, hpart⟩
      exact ⟨hpart, c, rfl, hstart c rfl⟩
    · rintro ⟨hpart, d, hd, hstart⟩
      refine ⟨List.cons_ne_nil c t, fun e he => ?_, hpart⟩
      rwa [Option.mem_unique he hd]

theorem isNameMark_eq_false_of_mem (h : c ∈ t.identifier) : c.isNameMark = false := by
  obtain ⟨d, -, hd⟩ := List.mem_flatMap.1 h
  exact CodePoint.isNameMark_eq_false_of_mem hd

theorem identifier_eq_self_iff : t.identifier = t ↔ ∀ c ∈ t, c.isNameMark = false := by
  refine ⟨fun h c hc => ?_, identifier_eq_self⟩
  rw [← h] at hc
  exact isNameMark_eq_false_of_mem hc

/-- An identifier starts with what the first character that is not dropped stands for. -/
theorem head?_identifier (t : Text) :
    t.identifier.head?
      = (t.find? fun c => !c.isNameClosing).bind fun c => c.identifierPart.head? := by
  induction t with
  | nil => rfl
  | cons c t ih =>
    have hcons : Text.identifier (c :: t) = c.identifierPart ++ Text.identifier t :=
      List.flatMap_cons
    rw [hcons, List.head?_append, ih, List.find?_cons]
    rcases c.identifierPart_cases with ⟨hclosing, hpart⟩ | ⟨hclosing, -, hpart | hpart⟩ |
      ⟨hclosing, -, hpart⟩ <;> simp [hclosing, hpart]

theorem forall_part_identifier (A : IdentifierAlphabet) (t : Text) :
    (∀ d ∈ t.identifier, A.part d) ↔ ∀ c ∈ t, c.isNameMark = false → A.part c := by
  simp only [← CodePoint.forall_part_identifierPart, identifier, List.mem_flatMap]
  constructor
  · intro h c hc d hd
    exact h d ⟨c, hc, hd⟩
  · rintro h d ⟨c, hc, hd⟩
    exact h c hc d hd

theorem exists_start_head?_identifier (A : IdentifierAlphabet) (t : Text) :
    (∃ d ∈ t.identifier.head?, A.start d)
      ↔ ∃ c ∈ t.find? fun c => !c.isNameClosing, c.isNameMark ∨ A.start c := by
  rw [head?_identifier]
  rcases hfind : t.find? fun c => !c.isNameClosing with _ | c
  · simp [hfind]
  · have hclosing : c.isNameClosing = false := by simpa using List.find?_some hfind
    simpa [hfind] using CodePoint.exists_start_head?_identifierPart A hclosing

/-- **Which names become legal identifiers.** An identifier holds no mark, so it is its own
identifier, and it is the name itself exactly if that holds none. It is legal exactly if every
character of the name that is no mark may be a part, and there is a character that is not dropped,
the first of which is a mark or may be a start. A legal identifier is thereby kept, unless it has a
dollar sign. -/
theorem identifier_isLegal_iff (A : IdentifierAlphabet) (t : Text) :
    (∀ c ∈ t.identifier, c.isNameMark = false)
      ∧ (t.identifier = t ↔ ∀ c ∈ t, c.isNameMark = false)
      ∧ t.identifier.identifier = t.identifier
      ∧ (t.identifier.IsLegal A ↔ (∀ c ∈ t, c.isNameMark = false → A.part c)
        ∧ ∃ c ∈ t.find? fun c => !c.isNameClosing, c.isNameMark ∨ A.start c)
      ∧ (t.IsLegal A → CodePoint.ofChar '$' ∉ t → t.identifier = t) := by
  refine ⟨fun c => isNameMark_eq_false_of_mem, identifier_eq_self_iff,
    identifier_eq_self fun c => isNameMark_eq_false_of_mem, ?_, fun hlegal hdollar => ?_⟩
  · rw [isLegal_iff, forall_part_identifier, exists_start_head?_identifier]
  · refine identifier_eq_self fun c hc => ?_
    by_contra hmark
    have heq := A.eq_dollar_of_part c (by simpa using hmark) (hlegal.part_mem c hc)
    exact hdollar (heq ▸ hc)

/-- The letters of ASCII, the underscore and the dollar sign, and digits after one of them. -/
def asciiAlphabet : IdentifierAlphabet where
  start c := c = '_' ∨ c = '$' ∨ 0x41 ≤ c.val ∧ c.val ≤ 0x5A ∨ 0x61 ≤ c.val ∧ c.val ≤ 0x7A
  part c := 0x30 ≤ c.val ∧ c.val ≤ 0x39 ∨ c = '_' ∨ c = '$' ∨ 0x41 ≤ c.val ∧ c.val ≤ 0x5A
    ∨ 0x61 ≤ c.val ∧ c.val ≤ 0x7A
  part_of_start _ := .inr
  start_underscore := .inl rfl
  start_letter := by decide
  eq_dollar_of_part c hmark hpart := by
    rw [CodePoint.isNameMark_iff] at hmark
    revert c
    decide

instance : DecidablePred asciiAlphabet.part := fun _ => inferInstanceAs (Decidable (_ ∨ _))

/-- The name of a type of arrays. -/
def arrayName : Text := "[Ljava.lang.String;"

theorem identifier_isLegal_iff_arrayName :
    IsLegal asciiAlphabet "ALjava_lang_String_"
      ∧ CodePoint.ofChar '$' ∉ Text.ofString "ALjava_lang_String_"
      ∧ identifier "ALjava_lang_String_" = "ALjava_lang_String_" := by
  obtain ⟨-, -, -, hlegal, -⟩ := identifier_isLegal_iff asciiAlphabet arrayName
  have hname : identifier arrayName = "ALjava_lang_String_" := by decide
  have hparts : ∀ c ∈ arrayName, c.isNameMark = false → asciiAlphabet.part c := by decide +kernel
  have hwritten : IsLegal asciiAlphabet "ALjava_lang_String_" :=
    hname ▸ hlegal.2 ⟨hparts, CodePoint.ofChar '[', by decide, .inl (by decide)⟩
  have hdollar : CodePoint.ofChar '$' ∉ Text.ofString "ALjava_lang_String_" := by decide
  obtain ⟨-, -, -, -, hkept⟩ := identifier_isLegal_iff asciiAlphabet "ALjava_lang_String_"
  exact ⟨hwritten, hdollar, hkept hwritten hdollar⟩

end Text

end JavaLiteral
