import JavaLiteral.Text

/-!
# Lines

A position is an integer, and a negative one counts from the end (`place`). Line feeds are counted
between two positions, and the lines around a position are those from the line feed at or before
it up to one at or after its end.

A file is split into lines otherwise: a line feed, a carriage return and the pair of both each end
a line (`lines`), and the end of the file ends one that is not empty.
-/

namespace JavaLiteral.Text

/-- The place within a text that a position means. -/
def place (t : Text) (i : Int) : Nat :=
  if i < 0 then (i + t.length).toNat else min i.toNat t.length

theorem place_of_nonneg {t : Text} {i : Int} (h : 0 ≤ i) : t.place i = min i.toNat t.length := by
  simp [place, Int.not_lt.2 h]

/-- The part of a text from place `i` up to place `j`. -/
def slice (t : Text) (i j : Nat) : Text := (t.take j).drop i

theorem length_slice (t : Text) (i j : Nat) : (t.slice i j).length = min j t.length - i := by
  rw [slice, List.length_drop, List.length_take]

theorem take_append_slice (t : Text) {i j : Nat} (h : i ≤ j) :
    t.take i ++ t.slice i j = t.take j := by
  have := List.take_append_drop i (t.take j)
  rwa [List.take_take, Nat.min_eq_left h] at this

theorem slice_append_drop (t : Text) {i j : Nat} (hij : i ≤ j) (hj : j ≤ t.length) :
    t.slice i j ++ t.drop j = t.drop i := by
  have hlength : i ≤ (t.take j).length := by rw [List.length_take]; omega
  rw [slice, ← List.drop_append_of_le_length hlength, List.take_append_drop]

/-- How many line feeds stand from `start` up to `pos`. The bounds are compared as they are given,
and a negative `start` is taken as zero. -/
def lineFeeds (t : Text) (start pos : Int) : Nat :=
  if pos ≤ start then 0
  else (t.slice (t.place (max start 0)) (t.place pos)).count (CodePoint.ofChar '\n')

/-- The place of the last line feed before `j`. -/
def lastLineFeed? (t : Text) (j : Nat) : Option Nat :=
  ((t.take j).reverse.idxOf? (CodePoint.ofChar '\n')).map fun k => (t.take j).length - 1 - k

/-- The place of the first line feed from `i` on. -/
def nextLineFeed? (t : Text) (i : Nat) : Option Nat :=
  ((t.drop i).idxOf? (CodePoint.ofChar '\n')).map (i + ·)

/-- Where the lines around a position are searched to: up to the end that is given, which must not
lie past the last place, or else from the place after the position. -/
def searchEnd (t : Text) (pos : Int) : Option Int → Int
  | none => pos + 1
  | some stop => if (t.length : Int) < stop then t.length - 1 else stop

/-- The lines around a position: from the line feed at or before it, which is kept, up to the
first one from the end on. There are none past the text. -/
def linesAround (t : Text) (pos : Int) (stop : Option Int) : Text :=
  if (t.length : Int) ≤ pos then []
  else
    t.slice ((t.lastLineFeed? (t.place (pos + 1))).getD 0)
      ((t.nextLineFeed? (t.place (t.searchEnd pos stop))).getD t.length)

/-- The lines around a position through an end, where -1 stands for no end. -/
def linesThrough (t : Text) (pos stop : Int) : Text :=
  t.linesAround pos (if stop = -1 then none else some stop)

theorem linesThrough_neg_one (t : Text) (pos : Int) :
    t.linesThrough pos (-1) = t.linesAround pos none := rfl

theorem linesThrough_of_ne {stop : Int} (h : stop ≠ -1) (t : Text) (pos : Int) :
    t.linesThrough pos stop = t.linesAround pos (some stop) := by
  rw [linesThrough, if_neg h]

/-- Whether a code point ends a line of a file. -/
def isLineEnd (c : CodePoint) : Bool := c = '\n' || c = '\r'

/-- The text without the line feeds that directly follow a carriage return. -/
def dropPairedFeeds : Text → Text
  | [] => []
  | [c] => [c]
  | c :: d :: cs =>
    if c = '\r' ∧ d = '\n' then c :: dropPairedFeeds cs else c :: dropPairedFeeds (d :: cs)

/-- The stretches that line ends close, and the rest if it is not empty. -/
def segments : Text → List Text
  | [] => []
  | c :: cs =>
    if isLineEnd c then [] :: segments cs
    else match segments cs with
      | [] => [[c]]
      | l :: ls => (c :: l) :: ls

/-- The lines of a file. -/
def lines (t : Text) : List Text := segments (dropPairedFeeds t)

/-- The part of a text that is known to consist of whole lines when more may follow it. A carriage
return at the very end is not known to end a line yet, since a line feed may follow. -/
def wholeLines (t : Text) : Text :=
  let settled := if t.getLast? = some (CodePoint.ofChar '\r') then t.dropLast else t
  (settled.reverse.dropWhile fun c => !isLineEnd c).reverse

end JavaLiteral.Text
