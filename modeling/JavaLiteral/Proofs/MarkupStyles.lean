import JavaLiteral.Proofs.MarkupLayers

/-!
# Where two styles of markup agree

What two styles write for a character is the same, or none of the two starts the other
(`written_eq_of_starts`). So the escaped forms of a text part at the first character that the styles
write differently, whatever follows it, and they are the same only if there is no such character
(`escapedMarkup_eq_iff_forall`). For the resource styles these characters are the quotes, and for
resource values and XML the controls with a letter (`escapedMarkup_styles`).
-/

namespace JavaLiteral

namespace Markup

/-- The controls that resource text writes by a letter. -/
def IsLettered (c : CodePoint) : Prop :=
  c = '\n' ∨ c = '\r' ∨ c = '\t' ∨ c = '\x08' ∨ c = '\x0C'

instance : DecidablePred IsLettered := fun _ => inferInstanceAs (Decidable (_ ∨ _))

variable {m m' : Markup} {c : CodePoint}

theorem written_eq_of_starts (h : m.written c <+: m'.written c) : m.written c = m'.written c := by
  by_cases hc : c ∈ escapable
  · have htable : ∀ c ∈ escapable, (m.written c).isPrefixOf (m'.written c) →
        m.written c = m'.written c := by
      cases m <;> cases m' <;> decide +kernel
    exact htable c hc (List.isPrefixOf_iff_prefix.2 h)
  · rw [written_of_not_mem hc, written_of_not_mem hc]

theorem written_eq_of_append_eq {s s' : Text} (h : m.written c ++ s = m'.written c ++ s') :
    m.written c = m'.written c := by
  have hpre : m.written c <+: m'.written c ++ s' := ⟨s, h⟩
  rcases List.prefix_or_prefix_of_prefix hpre (List.prefix_append _ s') with hle | hle
  · exact written_eq_of_starts hle
  · exact (written_eq_of_starts hle).symm

/-- Two styles escape a text in the same way only if they do so with all of its characters. -/
theorem escapedMarkup_eq_iff_forall (m m' : Markup) (t : Text) :
    t.escapedMarkup m = t.escapedMarkup m' ↔ ∀ c ∈ t, m.written c = m'.written c := by
  induction t with
  | nil => simp [Text.escapedMarkup]
  | cons c t ih =>
    rw [escapedMarkup_cons, escapedMarkup_cons, List.forall_mem_cons, ← ih]
    constructor
    · intro h
      have hc := written_eq_of_append_eq h
      rw [hc] at h
      exact ⟨hc, List.append_cancel_left h⟩
    · rintro ⟨hc, ht⟩
      rw [hc, ht]

theorem mem_escapable_of_isQuote (h : IsQuote c) : c ∈ escapable := by
  rcases h with rfl | rfl <;> decide

theorem mem_escapable_of_isLettered (h : IsLettered c) : c ∈ escapable := by
  rcases h with rfl | rfl | rfl | rfl | rfl <;> decide

theorem written_resource_eq_iff :
    resourceValue.written c = resourceString.written c ↔ ¬IsQuote c := by
  by_cases hc : c ∈ escapable
  · revert c
    decide +kernel
  · rw [written_of_not_mem hc, written_of_not_mem hc]
    exact iff_of_true rfl (mt mem_escapable_of_isQuote hc)

theorem written_value_eq_xml_iff :
    resourceValue.written c = xml.written c ↔ ¬IsLettered c := by
  by_cases hc : c ∈ escapable
  · revert c
    decide +kernel
  · rw [written_of_not_mem hc, written_of_not_mem hc]
    exact iff_of_true rfl (mt mem_escapable_of_isLettered hc)

/-- A resource value and a string resource are written in the same way exactly if the text holds no
quote, and a resource value and XML exactly if it holds no control with a letter. -/
theorem escapedMarkup_styles (t : Text) :
    (t.escapedMarkup resourceValue = t.escapedMarkup resourceString ↔ ∀ c ∈ t, ¬IsQuote c)
      ∧ (t.escapedMarkup resourceValue = t.escapedMarkup xml ↔ ∀ c ∈ t, ¬IsLettered c) := by
  constructor
  · simp only [escapedMarkup_eq_iff_forall, written_resource_eq_iff]
  · simp only [escapedMarkup_eq_iff_forall, written_value_eq_xml_iff]

end Markup

end JavaLiteral
