import JavaLiteral.Text

/-!
# Terminal sequences

A terminal takes an escape character, an opening bracket, parameters and a letter as an
instruction and not as text. A message loses them in one pass from the left
(`Text.withoutSequences`), and a text without an escape character loses nothing
(`withoutSequences_eq_self`).
-/

namespace JavaLiteral

namespace CodePoint

/-- The character that starts a sequence. -/
def isEscape (c : CodePoint) : Bool := c.val = 0x1B

/-- The parameters of a sequence. -/
def isSequenceParameter (c : CodePoint) : Bool :=
  (0x30 ≤ c.val && c.val ≤ 0x39) || c = ';' || c = '?'

/-- The letters that end a sequence. -/
def isSequenceEnd (c : CodePoint) : Bool :=
  (0x41 ≤ c.val && c.val ≤ 0x5A) || (0x61 ≤ c.val && c.val ≤ 0x7A)

end CodePoint

namespace Text

/-- What follows the parameters and the letter of a sequence. -/
def afterParameters? : Text → Option Text
  | [] => none
  | c :: cs =>
    if c.isSequenceParameter then afterParameters? cs
    else if c.isSequenceEnd then some cs
    else none

/-- What follows the sequence that a text starts with. -/
def afterSequence? : Text → Option Text
  | c :: d :: cs => if c.isEscape ∧ d = '[' then afterParameters? cs else none
  | _ => none

theorem length_le_of_afterParameters? :
    ∀ {t r : Text}, afterParameters? t = some r → r.length ≤ t.length
  | [], _, h => by simp [afterParameters?] at h
  | c :: cs, r, h => by
    simp only [afterParameters?] at h
    split at h
    · have := length_le_of_afterParameters? h
      simp only [List.length_cons]
      omega
    · split at h <;> simp_all

theorem length_lt_of_afterSequence? {t r : Text} (h : afterSequence? t = some r) :
    r.length < t.length := by
  unfold afterSequence? at h
  split at h
  · split at h
    · have := length_le_of_afterParameters? h
      simp only [List.length_cons]
      omega
    · simp at h
  · simp at h

/-- The text without the sequences in it. -/
def withoutSequences (t : Text) : Text :=
  match t with
  | [] => []
  | c :: cs =>
    match _h : afterSequence? (c :: cs) with
    | some rest => withoutSequences rest
    | none => c :: withoutSequences cs
termination_by t.length
decreasing_by
  · exact length_lt_of_afterSequence? (by assumption)
  · simp

theorem withoutSequences_eq_self {t : Text} (h : ∀ c ∈ t, c.isEscape = false) :
    t.withoutSequences = t := by
  induction t with
  | nil => simp [withoutSequences]
  | cons c cs ih =>
    have hn : afterSequence? (c :: cs) = none := by
      unfold afterSequence?
      split
      · next heq =>
        obtain ⟨rfl, _⟩ := List.cons.inj heq
        simp [h c (by simp)]
      · rfl
    rw [withoutSequences]
    split
    · simp_all
    · rw [ih fun d hd => h d (by simp [hd])]

end Text

end JavaLiteral
