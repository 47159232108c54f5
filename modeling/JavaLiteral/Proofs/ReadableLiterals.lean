import JavaLiteral.Proofs.CharReading
import JavaLiteral.Proofs.JsonWriting
import JavaLiteral.Proofs.Utf8Reading

/-!
# Nothing invisible stands in a literal

A literal consists of graphic characters of ASCII and of code points that were asked about and found
printable (`Text.graphic_or_printable`, `CodePoint.graphic_or_printable`). What is printable has a
glyph or is one of four spaces (`isPrintable_iff`), and no surrogate is, so a literal made for the
printable code points shows all that is in it and can be written in UTF-8
(`Text.literal_isReadable`).
-/

namespace JavaLiteral

namespace CodePoint

variable {c d : CodePoint}

/-- A code point of a category that is seen, or one of the four spaces that are told from the
others: the blank, and those that forbid a line break. -/
structure IsReadable (c : CodePoint) : Prop where
  category : c.category ∉ [.control, .format, .surrogate, .privateUse, .unassigned,
    .lineSeparator, .paragraphSeparator]
  space : c.category = .spaceSeparator → c.val ∈ [0x20, 0xA0, 0x2007, 0x202F]

theorem category_of_mem (h : c.val ∈ [0x20, 0xA0, 0x2007, 0x202F]) :
    c.category = .spaceSeparator := by
  simp only [List.mem_cons, List.not_mem_nil, or_false] at h
  rcases h with h | h | h | h <;>
    simp [CodePoint.category, isControl, isSurrogate, h, Category.inRanges,
      Category.spaceSeparatorRanges]

/-- A control or a separator is white space, unless it forbids a line break. -/
theorem isWhitespace_iff (hc : c.isControl = false) :
    c.isWhitespace ↔ c.category.isSeparator ∧ c.isNoBreakSpace = false := by
  simp only [isControl, Bool.or_eq_false_iff, Bool.and_eq_false_iff, decide_eq_false_iff_not] at hc
  have hlow : ¬(0x09 ≤ c.val ∧ c.val ≤ 0x0D) ∧ ¬(0x1C ≤ c.val ∧ c.val ≤ 0x1F) := by omega
  simp [isWhitespace, hlow, and_comm]

theorem isControl_eq_false (h : c.category ≠ .control) : c.isControl = false := by
  by_contra hcon
  exact h (category_control.2 (Bool.not_eq_false _ ▸ hcon))

theorem isPrintable_iff : c.isPrintable ↔ c.IsReadable := by
  have hfalse := not_congr (isPrintable_eq_false_iff (c := c))
  rw [Bool.not_eq_false, not_or, not_and, not_not] at hfalse
  rw [hfalse]
  constructor
  · rintro ⟨hhidden, hblank⟩
    have hcontrol := isControl_eq_false (c := c) fun h => by simp [h, Category.isHidden] at hhidden
    have hspace : c.category.isSeparator → c.val ∈ [0x20, 0xA0, 0x2007, 0x202F] := by
      intro hseparator
      by_cases hbreak : c.isNoBreakSpace
      · simp only [isNoBreakSpace, Bool.or_eq_true, decide_eq_true_eq] at hbreak
        simp only [List.mem_cons, List.not_mem_nil, or_false]
        omega
      · simp [hblank ((isWhitespace_iff hcontrol).2 ⟨hseparator, by simpa using hbreak⟩)]
    refine ⟨fun hmem => ?_, fun hs => hspace (by rw [hs]; rfl)⟩
    have hone := fun h => category_of_mem (hspace h)
    revert hhidden hmem hone
    cases c.category <;> simp [Category.isHidden, Category.isSeparator]
  · rintro ⟨hcategory, hspace⟩
    refine ⟨fun hhidden => ?_, fun hwhite => ?_⟩
    · revert hcategory hhidden
      cases c.category <;> simp [Category.isHidden]
    · have hcontrol := isControl_eq_false (c := c) fun h => by simp [h] at hcategory
      obtain ⟨hseparator, hbreak⟩ := (isWhitespace_iff hcontrol).1 hwhite
      have hs : c.category = .spaceSeparator := by
        revert hcategory hseparator
        cases c.category <;> simp [Category.isSeparator]
      have hval := hspace hs
      simp only [List.mem_cons, List.not_mem_nil, or_false] at hval
      simp only [isNoBreakSpace, Bool.or_eq_false_iff, decide_eq_false_iff_not] at hbreak
      omega

theorem IsGraphic.isPrintable (h : c.IsGraphic) : c.isPrintable := by
  have hall : ∀ n (hn : n < 0x7F), 0x20 ≤ n → (⟨n, by omega⟩ : CodePoint).isPrintable := by
    decide +kernel
  obtain ⟨hlow, hup⟩ := h
  exact hall c.val (by omega) hlow

theorem exists_ofChar (h : c.isSurrogate = false) : ∃ u : Char, ofChar u = c := by
  have hlt := c.val_lt
  have hvalid : c.val.isValidChar := by
    simp only [isSurrogate, Bool.and_eq_false_iff, decide_eq_false_iff_not] at h
    unfold Nat.isValidChar
    omega
  have hnat : (Char.ofNat c.val).toNat = c.val := by
    unfold Char.ofNat
    rw [dif_pos hvalid]
    rfl
  exact ⟨Char.ofNat c.val, CodePoint.ext hnat⟩

variable {p : CodePoint → Bool} {escapeUnicode : Bool}

theorem graphic_or_printable (hd : d ∈ (c.escaped escapeUnicode).answer p) :
    d.IsGraphic ∨ d = c ∧ escapeUnicode = false ∧ p d := by
  unfold escaped at hd
  split at hd
  · rename_i t ht
    exact .inl (Text.isGraphic_letterEscape ht d hd)
  · split_ifs at hd with hcontrol hascii hunicode
    · exact .inl (Text.isGraphic_unicodeEscape c d hd)
    · obtain rfl := List.mem_singleton.1 hd
      simp only [isBeyondAscii, Bool.not_eq_true', decide_eq_false_iff_not] at hascii
      exact .inl ⟨by omega, by omega⟩
    · exact .inl (Text.isGraphic_unicodeEscape c d hd)
    · rw [Consult.answer_map, Consult.answer_printable] at hd
      split_ifs at hd with hp
      · obtain rfl := List.mem_singleton.1 hd
        exact .inr ⟨rfl, by simpa using hunicode, hp⟩
      · exact .inl (Text.isGraphic_unicodeEscape c d hd)

theorem graphic_or_printable_render {cast : Bool}
    (hd : d ∈ ((c.charForm escapeUnicode).answer p).render cast) :
    d.IsGraphic ∨ d = c ∧ p d := by
  have hquoted : ∀ {body : Text}, (∀ e ∈ body, e.IsGraphic ∨ e = c ∧ p e) →
      d ∈ CharForm.render cast (.quoted body) → d.IsGraphic ∨ d = c ∧ p d := by
    intro body hbody hmem
    simp only [CharForm.render, List.cons_append, List.mem_cons, List.mem_append,
      List.not_mem_nil, or_false] at hmem
    rcases hmem with rfl | hmem | rfl
    · exact .inl (by decide)
    · exact hbody d hmem
    · exact .inl (by decide)
  unfold charForm at hd
  split at hd
  · have hquote : Text.IsGraphic (Text.ofString "\\'") := by decide
    exact hquoted (fun e he => .inl (hquote e he)) hd
  · split at hd
    · rename_i t ht
      exact hquoted (fun e he => .inl (Text.isGraphic_letterEscape ht e he)) hd
    · split_ifs at hd
      · exact hquoted (fun e he => .inl (Text.isGraphic_unicodeEscape c e he)) hd
      · rw [Consult.answer_map, Consult.answer_printable] at hd
        split_ifs at hd with hp
        · refine hquoted (fun e he => ?_) hd
          obtain rfl := List.mem_singleton.1 he
          exact .inr ⟨rfl, hp⟩
        · have hnumeral := Text.isGraphic_numeral (b := 10) (by decide) (by decide) c.val
          have hall : Text.IsGraphic (CharForm.render cast (.number c.val)) := by
            cases cast
            · exact hnumeral
            · exact Text.isGraphic_append.2 ⟨by decide, hnumeral⟩
          exact .inl (hall d hd)

end CodePoint

namespace Text

variable {t u : Text} {p : CodePoint → Bool} {escapeUnicode : Bool} {d : CodePoint}

theorem graphic_or_printable (hd : d ∈ (t.stringLiteral escapeUnicode).answer p) :
    d.IsGraphic ∨ d ∈ t ∧ escapeUnicode = false ∧ p d := by
  simp only [stringLiteral, escapedBody, Consult.answer_map, Consult.answer_flatMap,
    List.cons_append, List.mem_cons, List.mem_append, List.mem_flatMap, List.not_mem_nil,
    or_false] at hd
  rcases hd with rfl | ⟨c, hc, hd⟩ | rfl
  · exact .inl (by decide)
  · rcases CodePoint.graphic_or_printable hd with h | ⟨rfl, h⟩
    · exact .inl h
    · exact .inr ⟨hc, h⟩
  · exact .inl (by decide)

theorem exists_ofString (h : t.IsEncodable) : ∃ s : String, ofString s = t := by
  have hchars : ∃ cs : List Char, cs.map CodePoint.ofChar = t := by
    induction t with
    | nil => exact ⟨[], rfl⟩
    | cons c t ih =>
      obtain ⟨hc, ht⟩ := List.forall_mem_cons.1 h
      obtain ⟨u, rfl⟩ := CodePoint.exists_ofChar hc
      obtain ⟨cs, rfl⟩ := ih ht
      exact ⟨u :: cs, rfl⟩
  obtain ⟨cs, rfl⟩ := hchars
  exact ⟨String.ofList cs, by simp [ofString]⟩

/-- A text that shows all that is in it, and that a file can hold in UTF-8. -/
def IsReadable (t : Text) : Prop :=
  (∀ c ∈ t, c.IsReadable)
    ∧ ∃ s : String, ofString s = t ∧ Utf8.read (Utf8.octets s) = ⟨t, none⟩

theorem isReadable_of_isPrintable (h : ∀ c ∈ t, c.isPrintable) : t.IsReadable := by
  have hreadable : ∀ c ∈ t, c.IsReadable := fun c hc => CodePoint.isPrintable_iff.1 (h c hc)
  refine ⟨hreadable, ?_⟩
  obtain ⟨s, rfl⟩ := exists_ofString (t := t) fun c hc => by
    by_contra hcon
    have := CodePoint.category_surrogate.2 (Bool.not_eq_false _ ▸ hcon)
    simpa [this] using (hreadable c hc).category
  exact ⟨s, rfl, Utf8.read_octets s⟩

/-- **Literals show all that is in them.** If the printable code points may stand raw, the literals
of all texts and chars hold only readable ones and can be written in UTF-8. If no Unicode may, the
literal of a text is made of the graphic characters of ASCII, whatever predicate is given. -/
theorem literal_isReadable :
    (∀ (t : Text) escapeUnicode,
        IsReadable ((t.stringLiteral escapeUnicode).answer CodePoint.isPrintable))
      ∧ (∀ (a : CharArgument) escapeUnicode cast u,
        (a.literal escapeUnicode cast).map (Consult.answer CodePoint.isPrintable) = .ok u →
          IsReadable u)
      ∧ ∀ (t : Text) p, ∀ c ∈ (t.stringLiteral true).answer p, 0x20 ≤ c.val ∧ c.val ≤ 0x7E := by
  refine ⟨fun t escapeUnicode => ?_, fun a escapeUnicode cast u hu => ?_, fun t p c hc => ?_⟩
  · refine isReadable_of_isPrintable fun c hc => ?_
    rcases graphic_or_printable hc with h | ⟨-, -, h⟩
    · exact h.isPrintable
    · exact h
  · refine isReadable_of_isPrintable fun c hc => ?_
    rcases hcode : a.codePoint with e | d
    · simp [CharArgument.literal_eq_error.2 hcode, Except.map] at hu
    · rw [CharArgument.answer_literal hcode] at hu
      obtain rfl := Except.ok.inj hu
      rcases CodePoint.graphic_or_printable_render hc with h | ⟨-, h⟩
      · exact h.isPrintable
      · exact h
  · rcases graphic_or_printable hc with h | ⟨-, h, -⟩
    · exact h
    · cases h

/-- The space of the width of a digit, which stands raw between the quotes. -/
theorem literal_isReadable_figureSpace :
    ((CharArgument.code 0x2007).literal false true).map (Consult.answer CodePoint.isPrintable)
        = .ok ['\'', ⟨0x2007, by decide⟩, '\'']
      ∧ IsReadable ['\'', ⟨0x2007, by decide⟩, '\''] := by
  have hliteral : ((CharArgument.code 0x2007).literal false true).map
      (Consult.answer CodePoint.isPrintable) = .ok ['\'', ⟨0x2007, by decide⟩, '\''] := by
    decide +kernel
  exact ⟨hliteral, literal_isReadable.2.1 _ _ _ _ hliteral⟩

end Text

end JavaLiteral
