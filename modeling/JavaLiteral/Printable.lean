import JavaLiteral.Category

/-!
# Which code points are printable

A code point is printable if it renders as a visible glyph. The blank U+0020 is printable and no
other white space is; the three spaces that forbid a line break are not white space to Java, so
they are printable too (`isPrintable_eq_false_iff`).
-/

namespace JavaLiteral

namespace CodePoint

/-- The spaces that forbid a line break. -/
def isNoBreakSpace (c : CodePoint) : Bool := c.val = 0xA0 || c.val = 0x2007 || c.val = 0x202F

/-- White space as Java has it: blanks among the controls, and separators that allow a break. -/
def isWhitespace (c : CodePoint) : Bool :=
  (0x09 ≤ c.val && c.val ≤ 0x0D) || (0x1C ≤ c.val && c.val ≤ 0x1F) ||
    (!c.isNoBreakSpace && c.category.isSeparator)

/-- Whether a code point renders as a visible glyph. -/
def isPrintable (c : CodePoint) : Bool :=
  if c.isControl then false
  else if c.isWhitespace then c.val = 0x20
  else !c.category.isHidden

theorem isPrintable_eq_false_iff {c : CodePoint} :
    c.isPrintable = false ↔ c.category.isHidden ∨ (c.isWhitespace ∧ c.val ≠ 0x20) := by
  unfold isPrintable
  split
  · next h => simp [Category.isHidden, category_control.2 h]
  · split
    · next h _ =>
      by_cases hc : c.val = 0x20
      · have : c.category = .spaceSeparator := by
          unfold category
          simp [isControl, isSurrogate, hc, Category.inRanges, Category.spaceSeparatorRanges]
        simp [Category.isHidden, this, hc]
      · simp_all
    · simp_all

end CodePoint

/-- A number that was to name a code point is past the last one. -/
structure NotACodePoint where
  number : Int

namespace NotACodePoint

/-- The text of the error. -/
def message (_ : NotACodePoint) : Text := "chr() arg not in range(0x110000)"

end NotACodePoint

/-- Whether the code point of a number is printable. A negative number counts as a control. -/
def isPrintableNumber (n : Int) : Except NotACodePoint Bool :=
  if n < 0 then .ok false
  else match CodePoint.ofNat? n.toNat with
    | some c => .ok c.isPrintable
    | none => .error ⟨n⟩

end JavaLiteral
