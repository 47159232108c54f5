import JavaLiteral.Escape.Identifier
import JavaLiteral.Escape.Markup
import JavaLiteral.Escape.Source
import JavaLiteral.Floating
import JavaLiteral.Integer
import JavaLiteral.Proofs.DecimalDigits

/-!
# The characters of a literal

A literal is written in plain characters, those from the blank up to U+007F, and in characters of
the text that it is for. The only ones of the latter kind are those that are written raw. Digits and
escapes need graphic characters only, which are the plain ones without U+007F
(`isGraphic_numeral`, `isGraphic_unicodeEscape`).
-/

namespace JavaLiteral

namespace CodePoint

/-- A character of ASCII that is no control. -/
def IsGraphic (c : CodePoint) : Prop := 0x20 ≤ c.val ∧ c.val ≤ 0x7E

instance : DecidablePred IsGraphic := fun _ => inferInstanceAs (Decidable (_ ∧ _))

/-- A character that is neither a control nor past U+007F. U+007F itself counts as plain, as it
does in JSON. -/
def IsPlain (c : CodePoint) : Prop := 0x20 ≤ c.val ∧ c.val ≤ 0x7F

instance : DecidablePred IsPlain := fun _ => inferInstanceAs (Decidable (_ ∧ _))

end CodePoint

namespace Text

section Graphic

/-- A text of graphic characters. -/
def IsGraphic (t : Text) : Prop := ∀ c ∈ t, c.IsGraphic

instance : DecidablePred IsGraphic := fun t => inferInstanceAs (Decidable (∀ c ∈ t, c.IsGraphic))

variable {t u : Text} {b : ℕ}

theorem isGraphic_append : IsGraphic (t ++ u) ↔ IsGraphic t ∧ IsGraphic u :=
  List.forall_mem_append

theorem isGraphic_digits {ds : List ℕ} (h : ∀ d ∈ ds, d < 16) : IsGraphic (Digits.text ds) := by
  have hdigit : ∀ d < 16, (CodePoint.ofChar (Nat.digitChar d)).IsGraphic := by decide
  intro c hc
  obtain ⟨d, hd, rfl⟩ := List.mem_map.1 hc
  exact hdigit d (h d hd)

theorem isGraphic_numeral (hb : 1 < b) (hb' : b ≤ 16) (n : ℕ) : IsGraphic (numeral b n) := by
  rw [Digits.numeral_eq hb]
  exact isGraphic_digits fun d hd => (Digits.lt_of_mem_digitsOf hb hd).trans_le hb'

theorem isGraphic_paddedNumeral (hb : 1 < b) (hb' : b ≤ 16) (width n : ℕ) :
    IsGraphic (paddedNumeral b width n) := by
  refine isGraphic_append.2 ⟨fun c hc => ?_, isGraphic_numeral hb hb' n⟩
  rw [List.eq_of_mem_replicate hc]
  decide

theorem isGraphic_unicodeEscape (c : CodePoint) : IsGraphic c.unicodeEscape := by
  intro d hd
  rw [c.unicodeEscape_eq_flatMap] at hd
  obtain ⟨u, -, hu⟩ := List.mem_flatMap.1 hd
  exact isGraphic_append.2 ⟨by decide, isGraphic_paddedNumeral (by decide) (by decide) 4 u⟩ d hu

theorem isGraphic_letterEscape {c : CodePoint} (h : c.letterEscape? = some t) : t.IsGraphic := by
  unfold CodePoint.letterEscape? at h
  split_ifs at h <;> obtain rfl := Option.some.inj h <;> decide

end Graphic

/-- A text of plain characters. -/
def IsPlain (t : Text) : Prop := ∀ c ∈ t, c.IsPlain

instance : DecidablePred IsPlain := fun t => inferInstanceAs (Decidable (∀ c ∈ t, c.IsPlain))

variable {t u : Text}

@[simp] theorem isPlain_nil : IsPlain [] := nofun

@[simp] theorem isPlain_cons {c : CodePoint} : IsPlain (c :: t) ↔ c.IsPlain ∧ IsPlain t :=
  List.forall_mem_cons

@[simp] theorem isPlain_append : IsPlain (t ++ u) ↔ IsPlain t ∧ IsPlain u :=
  List.forall_mem_append

theorem isPlain_flatMap {α : Type} {as : List α} {f : α → Text} (h : ∀ a ∈ as, IsPlain (f a)) :
    IsPlain (as.flatMap f) := fun _ hc =>
  let ⟨a, ha, hca⟩ := List.mem_flatMap.1 hc
  h a ha _ hca

theorem IsGraphic.isPlain (h : IsGraphic t) : IsPlain t := fun c hc =>
  ⟨(h c hc).1, (h c hc).2.trans (by decide)⟩

theorem isPlain_numeral {b : ℕ} (hb : 1 < b) (hb' : b ≤ 16) (n : ℕ) : IsPlain (numeral b n) :=
  (isGraphic_numeral hb hb' n).isPlain

theorem isPlain_paddedNumeral {b : ℕ} (hb : 1 < b) (hb' : b ≤ 16) (width n : ℕ) :
    IsPlain (paddedNumeral b width n) :=
  (isGraphic_paddedNumeral hb hb' width n).isPlain

theorem isPlain_ofInt (n : ℤ) : IsPlain (ofInt n) := by
  have h := isPlain_numeral (b := 10) (by decide) (by decide) n.natAbs
  unfold ofInt
  split_ifs
  · exact isPlain_cons.2 ⟨by decide, h⟩
  · exact h

theorem isPlain_unicodeEscape (c : CodePoint) : IsPlain c.unicodeEscape :=
  (isGraphic_unicodeEscape c).isPlain

/-- A text of plain characters and of characters of another text. -/
def IsMadeOf (t u : Text) : Prop := ∀ c ∈ u, c.IsPlain ∨ c ∈ t

theorem IsPlain.isMadeOf (h : IsPlain u) : IsMadeOf t u := fun c hc => .inl (h c hc)

theorem isMadeOf_self (t : Text) : IsMadeOf t t := fun _ hc => .inr hc

theorem IsMadeOf.append {v : Text} (hu : IsMadeOf t u) (hv : IsMadeOf t v) :
    IsMadeOf t (u ++ v) :=
  List.forall_mem_append.2 ⟨hu, hv⟩

theorem IsMadeOf.between {b e : CodePoint} (hb : b.IsPlain) (he : e.IsPlain)
    (hu : IsMadeOf t u) : IsMadeOf t (b :: u ++ [e]) :=
  IsMadeOf.append (List.forall_mem_cons.2 ⟨.inl hb, hu⟩) (List.forall_mem_singleton.2 (.inl he))

theorem isMadeOf_flatMap {f : CodePoint → Text} (h : ∀ c, IsMadeOf [c] (f c)) (t : Text) :
    IsMadeOf t (t.flatMap f) := fun d hd => by
  obtain ⟨c, hc, hdc⟩ := List.mem_flatMap.1 hd
  refine (h c d hdc).imp_right fun hdc => ?_
  rwa [List.mem_singleton.1 hdc]

end Text

open Text

namespace Decimal

theorem mem_fraction {ds : List Char} {c : Char} (h : c ∈ fraction ds) : c ∈ ds ∨ c = '0' := by
  unfold fraction at h
  split_ifs at h
  · exact .inr (List.mem_singleton.1 h)
  · exact .inl h

theorem mem_plain {ds : List Char} {l : ℤ} {c : Char} (h : c ∈ plain ds l) :
    c ∈ ds ∨ c = '0' ∨ c = '.' := by
  unfold plain at h
  split_ifs at h
  · rcases List.mem_append.1 h with h | h
    · rcases List.mem_append.1 h with h | h
      · exact .inl (List.mem_of_mem_take h)
      · exact .inr (.inl (List.eq_of_mem_replicate h))
    · rcases List.mem_cons.1 h with h | h
      · exact .inr (.inr h)
      · exact (mem_fraction h).imp List.mem_of_mem_drop .inl
  · rcases List.mem_append.1 h with h | h
    · rcases List.mem_append.1 h with h | h
      · exact .inr (by simpa [or_comm] using h)
      · exact .inr (.inl (List.eq_of_mem_replicate h))
    · exact .inl h

theorem isPlain_of_mem_digits (d : Decimal) {c : Char} (h : c ∈ d.digits) :
    (CodePoint.ofChar c).IsPlain := by
  have hdigit : ∀ d < 10, (CodePoint.ofChar (Nat.digitChar d)).IsPlain := by decide
  rw [digits_eq] at h
  obtain ⟨e, he, rfl⟩ := List.mem_map.1 h
  exact hdigit e (Digits.lt_of_mem_significant he)

theorem isPlain_plain (d : Decimal) (l : ℤ) :
    IsPlain ((plain d.digits l).map CodePoint.ofChar) := by
  intro c hc
  obtain ⟨e, he, rfl⟩ := List.mem_map.1 hc
  rcases mem_plain he with he | rfl | rfl
  · exact d.isPlain_of_mem_digits he
  · decide
  · decide

theorem isPlain_text (x : ℚ) (d : Decimal) : IsPlain (d.text x) := by
  unfold text
  split_ifs
  · exact d.isPlain_plain d.leading
  · refine isPlain_append.2 ⟨isPlain_append.2 ⟨fun c hc => ?_, by decide⟩, isPlain_ofInt _⟩
    obtain ⟨e, he, rfl⟩ := List.mem_map.1 hc
    rcases List.mem_append.1 he with he | he
    · exact d.isPlain_of_mem_digits (List.mem_of_mem_take he)
    · rcases List.mem_cons.1 he with rfl | he
      · decide
      · rcases mem_fraction he with he | rfl
        · exact d.isPlain_of_mem_digits (List.mem_of_mem_drop he)
        · decide

end Decimal

namespace Binary

variable {F : Format}

theorem isPlain_finiteText (decimal : ℕ → Decimal) (x : Binary F) :
    IsPlain (x.finiteText decimal) := by
  refine isPlain_append.2 ⟨?_, ?_⟩
  · split_ifs <;> decide
  · split_ifs
    · decide
    · exact Decimal.isPlain_text _ _

theorem isPlain_constantName {x : Binary F} {name : Text} (h : x.constantName? = some name) :
    IsPlain name := by
  unfold constantName? at h
  split_ifs at h <;> obtain rfl := Option.some.inj h <;> decide

end Binary

theorem Double.isPlain_literal (x : Double) : IsPlain x.literal := by
  unfold literal
  split
  · next name hname =>
    exact isPlain_append.2 ⟨by decide, Binary.isPlain_constantName hname⟩
  · exact isPlain_append.2 ⟨x.isPlain_finiteText decimal, by decide⟩

theorem Single.isPlain_literal (x : Single) : IsPlain x.literal := by
  unfold literal
  split
  · next name hname =>
    exact isPlain_append.2 ⟨by decide, Binary.isPlain_constantName hname⟩
  · exact isPlain_append.2 ⟨x.isPlain_finiteText decimal, by decide⟩

namespace IntType

theorem isPlain_numeral (t : IntType) (f : IntegerFormat) (v : ℤ) : IsPlain (t.numeral f v) := by
  have hhex : IsPlain (hexDigits v) := Text.isPlain_numeral (by decide) (by decide) _
  cases f with
  | hexadecimal =>
    refine isPlain_append.2 ⟨by decide, ?_⟩
    split_ifs
    · exact fun c hc => hhex c (List.mem_of_mem_drop hc)
    · exact hhex
  | auto => exact isPlain_ofInt v
  | decimal => exact isPlain_ofInt v

theorem isPlain_number (t : IntType) (f : IntegerFormat) (cast : Bool) (v : ℤ) :
    IsPlain (t.number f cast v) := by
  have hcast : IsPlain t.castToken := by cases t <;> decide
  have hnumeral := t.isPlain_numeral f v
  unfold number casted
  split_ifs
  · exact isPlain_append.2 ⟨hnumeral, by decide⟩
  · exact isPlain_append.2 ⟨hcast, hnumeral⟩
  · exact hnumeral

theorem isPlain_boundaryName {t : IntType} {v : ℤ} {name : Text}
    (h : t.boundaryName? v = some name) : IsPlain name := by
  unfold boundaryName? at h
  cases t <;> simp only [boundaryClass?] at h <;> (try cases h) <;> split_ifs at h <;>
    obtain rfl := Option.some.inj h <;> decide

theorem isPlain_literal (t : IntType) (f : IntegerFormat) (cast : Bool) (v : ℤ) :
    IsPlain (t.literal f cast v) := by
  have hnumber := t.isPlain_number f cast v
  unfold literal
  split
  · cases hname : t.boundaryName? v with
    | none => exact t.isPlain_number .auto cast v
    | some name => exact isPlain_boundaryName hname
  · exact hnumber

end IntType

namespace CodePoint

theorem isPlain_letterEscape {c : CodePoint} {t : Text} (h : c.letterEscape? = some t) :
    t.IsPlain :=
  (isGraphic_letterEscape h).isPlain

variable (c : CodePoint)

theorem isMadeOf_escaped (p : CodePoint → Bool) (escapeUnicode : Bool) :
    IsMadeOf [c] ((c.escaped escapeUnicode).answer p) := by
  have hunicode := (isPlain_unicodeEscape c).isMadeOf (t := [c])
  unfold escaped
  split
  · next t ht => exact (isPlain_letterEscape ht).isMadeOf
  · split_ifs
    · exact hunicode
    · exact isMadeOf_self _
    · exact hunicode
    · rw [Consult.answer_map]
      split_ifs
      · exact isMadeOf_self _
      · exact hunicode

theorem isMadeOf_charForm (p : CodePoint → Bool) (escapeUnicode cast : Bool) :
    IsMadeOf [c] (CharForm.render cast ((c.charForm escapeUnicode).answer p)) := by
  have hquoted : ∀ {body : Text}, IsMadeOf [c] body →
      IsMadeOf [c] (CharForm.render cast (.quoted body)) :=
    IsMadeOf.between (by decide) (by decide)
  have hnumber : Text.IsPlain (CharForm.render cast (.number c.val)) := by
    have hnumeral := Text.isPlain_numeral (b := 10) (by decide) (by decide) c.val
    cases cast
    · exact hnumeral
    · exact isPlain_append.2 ⟨by decide, hnumeral⟩
  unfold charForm
  split
  · exact hquoted (IsPlain.isMadeOf (u := Text.ofString "\\'") (by decide))
  · split
    · next t ht => exact hquoted (isPlain_letterEscape ht).isMadeOf
    · split
      · exact hquoted (isPlain_unicodeEscape c).isMadeOf
      · rw [Consult.answer_map]
        split_ifs
        · exact hquoted (isMadeOf_self _)
        · exact hnumber.isMadeOf

theorem isMadeOf_identifierPart : IsMadeOf [c] c.identifierPart := by
  unfold identifierPart
  split_ifs
  · exact IsPlain.isMadeOf (by decide)
  · exact IsPlain.isMadeOf (by decide)
  · exact isPlain_nil.isMadeOf
  · exact isMadeOf_self _

theorem isPlain_markupEscape {m : Markup} {t : Text} (h : c.markupEscape? m = some t) :
    t.IsPlain := by
  have hentity : ∀ {t}, c.entity? = some t → t.IsPlain := by
    intro t h
    unfold entity? at h
    split_ifs at h <;> obtain rfl := Option.some.inj h <;> decide
  have hxml : ∀ {t}, c.xmlEscape? = some t → t.IsPlain := by
    intro t h
    unfold xmlEscape? at h
    split_ifs at h
    · obtain rfl := Option.some.inj h
      exact isPlain_cons.2 ⟨by decide, Text.isPlain_numeral (by decide) (by decide) _⟩
    · exact hentity h
  have hblank : ∀ {t}, c.blankEscape? = some t → t.IsPlain := by
    intro t h
    unfold blankEscape? at h
    split_ifs at h <;> obtain rfl := Option.some.inj h <;> decide
  have hquote : ∀ {t}, c.quoteEscape? = some t → t.IsPlain := by
    intro t h
    unfold quoteEscape? at h
    split_ifs at h <;> obtain rfl := Option.some.inj h <;> decide
  cases m with
  | xml => exact hxml h
  | resourceValue =>
    rcases (Option.orElse_eq_some _ _ _).1 h with h | ⟨-, h⟩
    · exact hblank h
    · exact hxml h
  | resourceString =>
    rcases (Option.orElse_eq_some _ _ _).1 h with h | ⟨-, h⟩
    · exact hquote h
    · rcases (Option.orElse_eq_some _ _ _).1 h with h | ⟨-, h⟩
      · exact hblank h
      · exact hxml h

end CodePoint

namespace Text

theorem isMadeOf_stringLiteral (p : CodePoint → Bool) (escapeUnicode : Bool) (t : Text) :
    IsMadeOf t ((t.stringLiteral escapeUnicode).answer p) := by
  rw [stringLiteral, Consult.answer_map, escapedBody, Consult.answer_flatMap]
  exact IsMadeOf.between (by decide) (by decide)
    (isMadeOf_flatMap (fun c => c.isMadeOf_escaped p escapeUnicode) t)

theorem isMadeOf_identifier (t : Text) : IsMadeOf t t.identifier :=
  isMadeOf_flatMap CodePoint.isMadeOf_identifierPart t

theorem isMadeOf_escapedMarkup (m : Markup) (t : Text) : IsMadeOf t (t.escapedMarkup m) := by
  refine isMadeOf_flatMap (fun c => ?_) t
  cases hc : c.markupEscape? m with
  | none => exact isMadeOf_self _
  | some u => exact (c.isPlain_markupEscape hc).isMadeOf

end Text

end JavaLiteral
