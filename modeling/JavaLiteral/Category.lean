import JavaLiteral.Text
import JavaLiteral.Category.Unassigned

/-!
# General categories

The general categories that decide whether a code point has a glyph of its own: the five of
"other" code points and the three kinds of separator. All the rest, letters, marks, numbers,
punctuation and symbols, are `Category.visible`. Every surrogate is `Category.surrogate`
(`category_surrogate`), and so is nothing else.
-/

namespace JavaLiteral

/-- The general categories, those of visible characters taken as one. -/
inductive Category where
  | control
  | format
  | privateUse
  | surrogate
  | unassigned
  | spaceSeparator
  | lineSeparator
  | paragraphSeparator
  | visible
deriving DecidableEq

namespace Category

/-- The separators: spaces, and the two code points that end a line or a paragraph. -/
def isSeparator : Category → Bool
  | spaceSeparator | lineSeparator | paragraphSeparator => true
  | _ => false

/-- The categories of code points with no glyph: controls, format codes, surrogates, and those
that the standard assigns no character. -/
def isHidden : Category → Bool
  | control | format | privateUse | surrogate | unassigned => true
  | _ => false

/-- Whether one of the ranges, which increase, holds `n`. -/
def inRanges (n : Nat) : List (Nat × Nat) → Bool
  | [] => false
  | (lo, hi) :: rest => if n < lo then false else if n ≤ hi then true else inRanges n rest

/-- The ranges of general category Cf. -/
def formatRanges : List (Nat × Nat) :=
  [(0xAD, 0xAD), (0x600, 0x605), (0x61C, 0x61C), (0x6DD, 0x6DD), (0x70F, 0x70F), (0x890, 0x891),
   (0x8E2, 0x8E2), (0x180E, 0x180E), (0x200B, 0x200F), (0x202A, 0x202E), (0x2060, 0x2064),
   (0x2066, 0x206F), (0xFEFF, 0xFEFF), (0xFFF9, 0xFFFB), (0x110BD, 0x110BD),
   (0x110CD, 0x110CD), (0x13430, 0x13438), (0x1BCA0, 0x1BCA3), (0x1D173, 0x1D17A),
   (0xE0001, 0xE0001), (0xE0020, 0xE007F)]

/-- The ranges of general category Co. -/
def privateUseRanges : List (Nat × Nat) :=
  [(0xE000, 0xF8FF), (0xF0000, 0xFFFFD), (0x100000, 0x10FFFD)]

/-- The ranges of general category Zs. -/
def spaceSeparatorRanges : List (Nat × Nat) :=
  [(0x20, 0x20), (0xA0, 0xA0), (0x1680, 0x1680), (0x2000, 0x200A), (0x202F, 0x202F),
   (0x205F, 0x205F), (0x3000, 0x3000)]

end Category

namespace CodePoint

/-- A control code is one of U+0000 to U+001F and U+007F to U+009F. -/
def isControl (c : CodePoint) : Bool :=
  c.val ≤ 0x1F || (0x7F ≤ c.val && c.val ≤ 0x9F)

/-- The general category of a code point. -/
def category (c : CodePoint) : Category :=
  if c.isControl then .control
  else if c.isSurrogate then .surrogate
  else if c.val = 0x2028 then .lineSeparator
  else if c.val = 0x2029 then .paragraphSeparator
  else if Category.inRanges c.val Category.spaceSeparatorRanges then .spaceSeparator
  else if Category.inRanges c.val Category.formatRanges then .format
  else if Category.inRanges c.val Category.privateUseRanges then .privateUse
  else if Category.inRanges c.val Category.unassignedRanges then .unassigned
  else .visible

theorem category_control {c : CodePoint} : c.category = .control ↔ c.isControl := by
  unfold category
  repeat' split
  all_goals simp_all

theorem category_surrogate {c : CodePoint} : c.category = .surrogate ↔ c.isSurrogate := by
  unfold category
  repeat' split
  all_goals simp_all [isControl, isSurrogate]
  all_goals omega

end CodePoint

end JavaLiteral
