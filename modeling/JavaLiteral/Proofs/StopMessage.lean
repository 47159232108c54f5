import JavaLiteral.CommandLine.Command
import JavaLiteral.Proofs.JsonWriting

/-!
# The message for a bad line

A sequence does not reach across a blank or a colon (`Text.withoutSequences_append`), so what a
message says about a bad line is shown as it is, with the number of the line in it: only the name of
the file and the reason may lose instructions to a terminal (`shown_stopMessage`).
-/

namespace JavaLiteral

/-- A code point that is no part of a sequence. -/
def CodePoint.BreaksSequence (c : CodePoint) : Prop :=
  c.isEscape = false ∧ c ≠ '[' ∧ c.isSequenceParameter = false ∧ c.isSequenceEnd = false

instance : DecidablePred CodePoint.BreaksSequence := fun _ => inferInstanceAs (Decidable (_ ∧ _))

namespace Text

variable {c : CodePoint}

theorem afterParameters?_append (hc : c.BreaksSequence) (t u : Text) :
    afterParameters? (t ++ c :: u) = (afterParameters? t).map (· ++ c :: u) := by
  obtain ⟨-, -, hparameter, hend⟩ := hc
  induction t with
  | nil => simp [afterParameters?, hparameter, hend]
  | cons d ds ih =>
    rw [List.cons_append, afterParameters?, afterParameters?]
    split_ifs
    · exact ih
    · rfl
    · rfl

theorem afterSequence?_append (hc : c.BreaksSequence) (t u : Text) :
    afterSequence? (t ++ c :: u) = (afterSequence? t).map (· ++ c :: u) := by
  obtain ⟨hescape, hbracket, -⟩ := id hc
  match t with
  | [] => cases u <;> simp [afterSequence?, hescape]
  | [d] => simp [afterSequence?, hbracket]
  | d :: e :: t =>
    rw [List.cons_append, List.cons_append, afterSequence?, afterSequence?]
    split_ifs
    · exact afterParameters?_append hc t u
    · rfl

theorem withoutSequences_of_none {t : Text} (h : afterSequence? (c :: t) = none) :
    withoutSequences (c :: t) = c :: withoutSequences t := by
  rw [withoutSequences]
  split
  · next hsome => rw [h] at hsome; cases hsome
  · rfl

theorem withoutSequences_of_some {t rest : Text} (h : afterSequence? (c :: t) = some rest) :
    withoutSequences (c :: t) = withoutSequences rest := by
  rw [withoutSequences]
  split
  · next hsome =>
    rw [h] at hsome
    rw [Option.some.inj hsome]
  · next hnone => rw [h] at hnone; cases hnone

/-- The two sides of a code point that is no part of a sequence lose their sequences apart. -/
theorem withoutSequences_append (hc : c.BreaksSequence) (t u : Text) :
    withoutSequences (t ++ c :: u) = withoutSequences t ++ c :: withoutSequences u := by
  induction hn : t.length using Nat.strong_induction_on generalizing t with
  | h n ih =>
    subst hn
    have hafter := afterSequence?_append hc t u
    cases t with
    | nil =>
      rw [withoutSequences, List.nil_append, List.nil_append]
      exact withoutSequences_of_none hafter
    | cons d ds =>
      cases hd : afterSequence? (d :: ds) with
      | none =>
        rw [hd, List.cons_append] at hafter
        rw [withoutSequences_of_none hd, List.cons_append, withoutSequences_of_none hafter,
          ih _ (Nat.lt_succ_self _) ds rfl, List.cons_append]
      | some rest =>
        rw [hd, List.cons_append] at hafter
        rw [withoutSequences_of_some hd, List.cons_append, withoutSequences_of_some hafter,
          ih _ (length_lt_of_afterSequence? hd) rest rfl]

theorem withoutSequences_of_isPlain {t : Text} (h : t.IsPlain) : t.withoutSequences = t :=
  withoutSequences_eq_self fun d hd => by
    have := (h d hd).1
    simp only [CodePoint.isEscape, decide_eq_false_iff_not]
    omega

end Text

namespace CommandLine.Command

open Text

/-- What is shown of a text in a message. -/
def shownPart (t : Text) : Text := shown t.withoutSequences

theorem shown_append (t u : Text) : shown (t ++ u) = shown t ++ shown u := List.flatMap_append

theorem shown_cons {c : CodePoint} (hc : c.IsPlain) (t : Text) : shown (c :: t) = c :: shown t := by
  rw [shown, List.flatMap_cons, if_neg (by simp [hc.isSurrogate_eq_false])]
  rfl

theorem shown_message (t : Text) : shown (message t) = line (shownPart t) := shown_append _ _

theorem shownPart_append {c : CodePoint} (hc : c.BreaksSequence) (hplain : c.IsPlain) (t u : Text) :
    shownPart (t ++ c :: u) = shownPart t ++ c :: shownPart u := by
  rw [shownPart, withoutSequences_append hc, shown_append, shown_cons hplain]
  rfl

theorem shownPart_of_isPlain {t : Text} (h : t.IsPlain) : shownPart t = t := by
  rw [shownPart, withoutSequences_of_isPlain h]
  induction t with
  | nil => rfl
  | cons c cs ih =>
    obtain ⟨hc, hcs⟩ := isPlain_cons.1 h
    rw [shown_cons hc, ih hcs]

/-- The line on the error channel that names a bad line of a file. -/
def errorLine (input : Path) (number : ℕ) (f : LineFault) : Text :=
  line (Text.ofString "Error: invalid JSONL row in " ++ shownPart input.toText
    ++ Text.ofString " at line " ++ numeral 10 number ++ Text.ofString ": " ++ shownPart f.message)

/-- The message for a bad line tells the number of the line. -/
theorem shown_stopMessage (input : Path) (number : ℕ) (f : LineFault) :
    ∃ t, stopMessage input (.line number f) = .ok t
      ∧ shown (message t) = errorLine input number f := by
  have hblank : CodePoint.BreaksSequence ' ' := by decide
  have hcolon : CodePoint.BreaksSequence ':' := by decide
  have hstart : Text.ofString "Error: invalid JSONL row in "
      = Text.ofString "Error: invalid JSONL row in" ++ [CodePoint.ofChar ' '] := rfl
  have hline : Text.ofString " at line "
      = CodePoint.ofChar ' ' :: (Text.ofString "at line" ++ [CodePoint.ofChar ' ']) := rfl
  have hend : Text.ofString ": " = [CodePoint.ofChar ':', CodePoint.ofChar ' '] := rfl
  have hparts : ∀ p m : Text, Text.ofString "Error: invalid JSONL row in " ++ p
      ++ Text.ofString " at line " ++ numeral 10 number ++ Text.ofString ": " ++ m
      = Text.ofString "Error: invalid JSONL row in" ++ CodePoint.ofChar ' ' :: (p
        ++ CodePoint.ofChar ' ' :: (Text.ofString "at line" ++ CodePoint.ofChar ' '
        :: (numeral 10 number ++ CodePoint.ofChar ':' :: ([] ++ CodePoint.ofChar ' ' :: m)))) := by
    intro p m
    rw [hstart, hline, hend]
    simp only [List.append_assoc, List.cons_append, List.nil_append]
  refine ⟨_, rfl, ?_⟩
  -- The name of the file and the reason stand between blanks and colons that no sequence crosses.
  rw [shown_message, errorLine, hparts, hparts, shownPart_append hblank (by decide),
    shownPart_append hblank (by decide), shownPart_append hblank (by decide),
    shownPart_append hcolon (by decide), shownPart_append hblank (by decide),
    shownPart_of_isPlain (t := Text.ofString "Error: invalid JSONL row in") (by decide),
    shownPart_of_isPlain (t := Text.ofString "at line") (by decide),
    shownPart_of_isPlain (isPlain_numeral (by decide) (by decide) number),
    shownPart_of_isPlain isPlain_nil]

end CommandLine.Command

end JavaLiteral
