import JavaLiteral.Text

/-!
# Reading UTF-8

Octets are read one at a time. Between code points the next octet leads a new one; within one it
has to lie in the range that the octets before it leave. An octet that cannot stand is refused at
once, with the code point that it breaks. Octets that stop within a code point are no refusal of
what comes before them, so they are handed back as a tail (`Utf8.decode`), and so are the first
two octets of a surrogate where nothing follows them.

A file is read block by block (`Utf8.read`). Where it is UTF-8 the blocks make no difference; where
it is not, the blocks before the failure have been read, and its place counts from the octets that
were still open at the start of its block.
-/

namespace JavaLiteral.Utf8

/-- A code point of which some octets have been read. -/
structure Unfinished where
  octets : List Nat
  value : Nat
  owed : Nat
  least : Nat
  greatest : Nat
deriving DecidableEq

/-- How octets fail to be UTF-8. -/
inductive Fault where
  | lead
  | continuation
  | ending
deriving DecidableEq

/-- A failure, the place where the broken code point starts and its octets. -/
structure Failure where
  start : Nat
  octets : List Nat
  fault : Fault
deriving DecidableEq

namespace Fault

/-- The reason as it is given in an error. -/
def reason : Fault → Text
  | lead => "invalid start byte"
  | continuation => "invalid continuation byte"
  | ending => "unexpected end of data"

end Fault

namespace Failure

/-- The octets of a failure and their places. -/
def location (f : Failure) : Text :=
  match f.octets with
  | [b] =>
    Text.ofString "byte 0x" ++ Text.paddedNumeral 16 2 b ++ Text.ofString " in position "
      ++ Text.numeral 10 f.start
  | bs =>
    Text.ofString "bytes in position " ++ Text.numeral 10 f.start ++ Text.ofString "-"
      ++ Text.numeral 10 (f.start + bs.length - 1)

/-- The text of the error. -/
def message (f : Failure) : Text :=
  Text.ofString "'utf-8' codec can't decode " ++ f.location ++ Text.ofString ": "
    ++ f.fault.reason

end Failure

/-- What an octet starts when it leads a code point of several octets. -/
def lead? (b : Nat) : Option Unfinished :=
  if 0xC2 ≤ b ∧ b ≤ 0xDF then some ⟨[b], b - 0xC0, 1, 0x80, 0xBF⟩
  else if b = 0xE0 then some ⟨[b], b - 0xE0, 2, 0xA0, 0xBF⟩
  else if b = 0xED then some ⟨[b], b - 0xE0, 2, 0x80, 0x9F⟩
  else if 0xE1 ≤ b ∧ b ≤ 0xEF then some ⟨[b], b - 0xE0, 2, 0x80, 0xBF⟩
  else if b = 0xF0 then some ⟨[b], b - 0xF0, 3, 0x90, 0xBF⟩
  else if b = 0xF4 then some ⟨[b], b - 0xF0, 3, 0x80, 0x8F⟩
  else if 0xF1 ≤ b ∧ b ≤ 0xF3 then some ⟨[b], b - 0xF0, 3, 0x80, 0xBF⟩
  else none

/-- A code point with one more octet, which lies in the range for it. -/
def Unfinished.take (u : Unfinished) (b : Nat) : Unfinished :=
  ⟨u.octets ++ [b], u.value * 64 + (b - 0x80), u.owed - 1, 0x80, 0xBF⟩

/-- The text of some octets, and the octets at their end that stop within a code point. -/
structure Decoded where
  text : Text
  tail : List Nat

namespace Decoded

/-- A text with one more code point in front. -/
def push (c : Option CodePoint) (d : Decoded) : Decoded := ⟨c.toList ++ d.text, d.tail⟩

end Decoded

/-- Two octets that would start a surrogate, which has no form in UTF-8. -/
def startsSurrogate : List Nat → Bool
  | [a, b] => a = 0xED && 0xA0 ≤ b && b ≤ 0xBF
  | _ => false

/-- Reads octets, of which the first stands at `place`. -/
def decodeFrom (place : Nat) : Option Unfinished → List Nat → Except Failure Decoded
  | none, [] => .ok ⟨[], []⟩
  | some u, [] => .ok ⟨[], u.octets⟩
  | none, b :: bs =>
    if b < 0x80 then (decodeFrom (place + 1) none bs).map (Decoded.push (CodePoint.ofNat? b))
    else match lead? b with
      | some u => decodeFrom (place + 1) (some u) bs
      | none => .error ⟨place, [b], .lead⟩
  | some u, b :: bs =>
    if u.least ≤ b ∧ b ≤ u.greatest then
      if u.owed = 1 then
        (decodeFrom (place + 1) none bs).map
          (Decoded.push (CodePoint.ofNat? (u.take b).value))
      else decodeFrom (place + 1) (some (u.take b)) bs
    else if bs = [] ∧ startsSurrogate (u.octets ++ [b]) then .ok ⟨[], u.octets ++ [b]⟩
    else .error ⟨place - u.octets.length, u.octets, .continuation⟩

/-- Reads octets as UTF-8. -/
def decode (octets : List Nat) : Except Failure Decoded := decodeFrom 0 none octets

/-- The failure of a tail that nothing follows. It is met alone, so its places count from zero. -/
def tailFailure? (octets : List Nat) : Option Failure :=
  if octets = [] then none
  else if startsSurrogate octets then some ⟨0, octets.take 1, .continuation⟩
  else some ⟨0, octets, .ending⟩

/-- The text that was read of a file, and the failure that the reading stopped at. -/
structure Reading where
  text : Text
  failure : Option Failure

/-- The most octets of a block. -/
def blockSize : Nat := 8192

/-- Reads block by block, after octets that stopped within a code point. -/
def readBlocks (tail octets : List Nat) : Reading :=
  if _h : octets = [] then ⟨[], tailFailure? tail⟩
  else
    match decode (tail ++ octets.take blockSize) with
    | .error f => ⟨[], some f⟩
    | .ok d =>
      let rest := readBlocks d.tail (octets.drop blockSize)
      ⟨d.text ++ rest.text, rest.failure⟩
termination_by octets.length
decreasing_by
  have : 0 < octets.length := List.length_pos_iff.2 (by assumption)
  simp only [List.length_drop, blockSize]
  omega

/-- Reads a file. -/
def read (octets : List Nat) : Reading :=
  match decode octets with
  | .ok d => ⟨d.text, tailFailure? d.tail⟩
  | .error _ => readBlocks [] octets

end JavaLiteral.Utf8
