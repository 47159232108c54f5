import JavaLiteral.Proofs.MarkupCollisions
import Mathlib.Algebra.Group.Nat.Even
import Mathlib.Data.List.Infix

/-!
# Two layers of escapes in markup

An escaped text is a layer of backslashes, with entities over it. Nothing of the text is mistaken
for markup: no control, no `<` and no `>` is left, every `&` starts an entity, and a quote stands
only in a string resource, where a backslash takes it. Replacing the entities, from the left and
once, leaves the layer of backslashes and nothing else (`escapedMarkup_layers`).

Whether a backslash at the end of a text takes the character after it depends on how many stand
there. `quoteScan` carries that along a text, and what is written for one character takes it from
even to even again (`quoteScan_written`).
-/

namespace JavaLiteral

namespace Markup

/-- The predefined entities, with the characters that they stand for. -/
def entities : List (Text × CodePoint) :=
  [("&amp;", '&'), ("&lt;", '<'), ("&gt;", '>'), ("&quot;", '"'), ("&apos;", '\'')].map
    fun (name, c) => (Text.ofString name, CodePoint.ofChar c)

/-- The text with its entities replaced by their characters, in one pass from the left. -/
def resolved : Text → Text
  | [] => []
  | c :: t =>
    match entities.find? fun e => e.1.isPrefixOf (c :: t) with
    | some e => e.2 :: resolved (t.drop (e.1.length - 1))
    | none => c :: resolved t
termination_by t => t.length
decreasing_by
  · simp only [List.length_drop, List.length_cons]
    omega
  · simp

/-- The letter that names a control in resource text. -/
def controlLetter? (n : ℕ) : Option Char :=
  if n = 8 then some 'b'
  else if n = 9 then some 't'
  else if n = 10 then some 'n'
  else if n = 12 then some 'f'
  else if n = 13 then some 'r'
  else none

/-- A quote of either kind. -/
def IsQuote (c : CodePoint) : Prop := c = '"' ∨ c = '\''

instance : DecidablePred IsQuote := fun c => inferInstanceAs (Decidable (c = _ ∨ c = _))

/-- A character in the layer of backslashes: a control is named after a backslash, by a letter that
resource text has for it or else by its number, and a backslash stands before another one and, in
a string resource, before a quote. -/
def backslashed (m : Markup) (c : CodePoint) : Text :=
  if c.val ≤ 0x1F then
    CodePoint.ofChar '\\' ::
      match (if m = xml then none else controlLetter? c.val) with
      | some l => [CodePoint.ofChar l]
      | none => Text.numeral 10 c.val
  else if c = '\\' ∨ (m = resourceString ∧ IsQuote c) then [CodePoint.ofChar '\\', c]
  else [c]

/-- How many backslashes stand at the end of a text. -/
def closingBackslashes (t : Text) : ℕ :=
  (t.reverse.takeWhile fun c => c = CodePoint.ofChar '\\').length

/-- Reads a text after an odd or even number of backslashes, and gives whether that number is odd at
its end. A quote is refused but in a string resource after an odd number. -/
def quoteScan (m : Markup) (odd : Bool) : Text → Option Bool
  | [] => some odd
  | c :: t =>
    if IsQuote c ∧ ¬(m = resourceString ∧ odd) then none
    else quoteScan m (c = '\\' && !odd) t

variable {m : Markup} {c : CodePoint} {r s t : Text}

section Entities

theorem resolved_of_ne (h : c ≠ '&') (t : Text) : resolved (c :: t) = c :: resolved t := by
  have hnone : entities.find? (fun e => e.1.isPrefixOf (c :: t)) = none := by
    have hhead : ∀ e ∈ entities, e.1.head? = some (CodePoint.ofChar '&') := by decide
    refine List.find?_eq_none.2 fun e he hpre => h ?_
    obtain ⟨r, hr⟩ := List.isPrefixOf_iff_prefix.1 hpre
    have hc := hhead e he
    rw [← List.head?_append_of_ne_nil _ (by rintro hnil; simp [hnil] at hc), hr] at hc
    exact Option.some.inj hc
  rw [resolved, hnone]

theorem resolved_append_of_not_mem (h : CodePoint.ofChar '&' ∉ s) (t : Text) :
    resolved (s ++ t) = s ++ resolved t := by
  induction s with
  | nil => rfl
  | cons c s ih =>
    rw [List.mem_cons, not_or] at h
    rw [List.cons_append, resolved_of_ne (Ne.symm h.1), ih h.2, List.cons_append]

theorem resolved_of_find? {e : Text × CodePoint}
    (h : entities.find? (fun e => e.1.isPrefixOf (c :: t)) = some e) :
    resolved (c :: t) = e.2 :: resolved (t.drop (e.1.length - 1)) := by
  rw [resolved, h]

/-- No entity starts another one, so what follows an entity does not matter. -/
theorem resolved_entity {e : Text × CodePoint} (he : e ∈ entities) (t : Text) :
    resolved (e.1 ++ t) = e.2 :: resolved t := by
  simp only [entities, List.map_cons, List.map_nil, List.mem_cons, List.not_mem_nil,
    or_false] at he
  rcases he with rfl | rfl | rfl | rfl | rfl <;> exact resolved_of_find? rfl

theorem backslashed_of_not_mem (h : c ∉ escapable) : m.backslashed c = [c] := by
  have hval : ¬c.val ≤ 0x1F := fun hle => h (List.mem_append_left _ (mem_controls.2 hle))
  have hne : ∀ b ∈ escapable, c ≠ b := fun b hb heq => h (heq ▸ hb)
  have hescape : ¬(c = '\\' ∨ (m = resourceString ∧ IsQuote c)) := by
    rintro (hc | ⟨-, hc | hc⟩)
    · exact hne _ (by decide) hc
    · exact hne _ (by decide) hc
    · exact hne _ (by decide) hc
  rw [backslashed, if_neg hval, if_neg hescape]

/-- What stands for a character is its layer of backslashes, unless an entity stands for it. -/
theorem written_cases (m : Markup) (c : CodePoint) :
    (m.written c = m.backslashed c ∧ CodePoint.ofChar '&' ∉ m.written c)
      ∨ ∃ e ∈ entities, m.written c = e.1 ∧ m.backslashed c = [e.2] := by
  by_cases hc : c ∈ escapable
  · revert c
    cases m <;> decide +kernel
  · rw [written_of_not_mem hc, backslashed_of_not_mem hc, List.mem_singleton]
    exact .inl ⟨rfl, fun h => hc (h ▸ by decide)⟩

theorem resolved_escapedMarkup (m : Markup) (t : Text) :
    resolved (t.escapedMarkup m) = t.flatMap m.backslashed := by
  induction t with
  | nil => rw [Text.escapedMarkup, List.flatMap_nil, resolved, List.flatMap_nil]
  | cons c t ih =>
    rw [escapedMarkup_cons, List.flatMap_cons, ← ih]
    rcases written_cases m c with ⟨heq, hmem⟩ | ⟨e, he, heq, hlayer⟩
    · rw [resolved_append_of_not_mem hmem, heq]
    · rw [heq, resolved_entity he, hlayer, List.singleton_append]

/-- Every `&` of a text starts an entity. -/
def AmpersandsStart (w : Text) : Prop :=
  ∀ s r, w = s ++ CodePoint.ofChar '&' :: r → ∃ e ∈ entities, e.1 <+: CodePoint.ofChar '&' :: r

theorem AmpersandsStart.append {w w' : Text} (h : AmpersandsStart w) (h' : AmpersandsStart w') :
    AmpersandsStart (w ++ w') := by
  intro s r heq
  rcases List.append_eq_append_iff.1 heq with ⟨u, rfl, hu⟩ | ⟨u, rfl, hu⟩
  · exact h' u r hu
  · cases u with
    | nil => exact h' [] r hu.symm
    | cons c u =>
      obtain ⟨rfl, rfl⟩ := List.cons.inj hu
      obtain ⟨e, he, hpre⟩ := h s u rfl
      exact ⟨e, he, hpre.trans (List.prefix_append (CodePoint.ofChar '&' :: u) w')⟩

theorem ampersandsStart_entity {e : Text × CodePoint} (he : e ∈ entities) :
    AmpersandsStart e.1 := by
  have htail : ∀ e ∈ entities, e.1.head? = some (CodePoint.ofChar '&')
      ∧ CodePoint.ofChar '&' ∉ e.1.tail := by decide
  obtain ⟨hhead, hmem⟩ := htail e he
  rintro (_ | ⟨d, s⟩) r heq
  · exact ⟨e, he, heq ▸ List.prefix_rfl⟩
  · rw [heq] at hmem
    exact absurd (List.mem_append_right s List.mem_cons_self) hmem

theorem ampersandsStart_written (m : Markup) (c : CodePoint) :
    AmpersandsStart (m.written c) := by
  rcases written_cases m c with ⟨-, hmem⟩ | ⟨e, he, heq, -⟩
  · intro s r heq
    rw [heq] at hmem
    exact absurd (List.mem_append_right s List.mem_cons_self) hmem
  · rw [heq]
    exact ampersandsStart_entity he

theorem ampersandsStart_escapedMarkup (m : Markup) (t : Text) :
    AmpersandsStart (t.escapedMarkup m) := by
  induction t with
  | nil => exact fun s r h => absurd h.symm (by simp [Text.escapedMarkup])
  | cons c t ih =>
    rw [escapedMarkup_cons]
    exact (ampersandsStart_written m c).append ih

theorem of_mem_escapedMarkup (h : c ∈ t.escapedMarkup m) :
    0x1F < c.val ∧ c ≠ '<' ∧ c ≠ '>' := by
  obtain ⟨d, -, hd⟩ := List.mem_flatMap.1 h
  change c ∈ m.written d at hd
  by_cases hmem : d ∈ escapable
  · have htable : ∀ d ∈ escapable, ∀ c ∈ m.written d,
        0x1F < c.val ∧ c ≠ CodePoint.ofChar '<' ∧ c ≠ CodePoint.ofChar '>' := by
      cases m <;> decide +kernel
    exact htable d hmem c hd
  · rw [written_of_not_mem hmem] at hd
    obtain rfl := List.mem_singleton.1 hd
    have hne : ∀ b ∈ escapable, c ≠ b := fun b hb heq => hmem (heq ▸ hb)
    refine ⟨?_, hne _ (by decide), hne _ (by decide)⟩
    by_contra hle
    exact hmem (List.mem_append_left _ (mem_controls.2 (by omega)))

end Entities

section Quotes

theorem closingBackslashes_concat (s : Text) (c : CodePoint) :
    closingBackslashes (s ++ [c]) = if c = '\\' then closingBackslashes s + 1 else 0 := by
  unfold closingBackslashes
  rw [List.reverse_append, List.reverse_singleton, List.singleton_append, List.takeWhile_cons]
  split_ifs with h h'
  · rfl
  · exact absurd (of_decide_eq_true h) h'
  · rename_i h'
    exact absurd (decide_eq_true h') h
  · rfl

theorem quoteScan_append (odd : Bool) (s t : Text) :
    m.quoteScan odd (s ++ t) = (m.quoteScan odd s).bind (m.quoteScan · t) := by
  induction s generalizing odd with
  | nil => rfl
  | cons c s ih =>
    rw [List.cons_append, quoteScan, quoteScan]
    split_ifs
    · rfl
    · exact ih _

/-- What a scan tells at its end is whether the number of backslashes there is odd. -/
theorem odd_of_quoteScan {odd : Bool} (h : m.quoteScan false s = some odd) :
    odd ↔ Odd (closingBackslashes s) := by
  induction s using List.reverseRecOn generalizing odd with
  | nil =>
    obtain rfl := Option.some.inj h
    decide
  | append_singleton s c ih =>
    rw [quoteScan_append] at h
    obtain ⟨odd', hs, hc⟩ := Option.bind_eq_some_iff.1 h
    rw [quoteScan] at hc
    split_ifs at hc
    obtain rfl := Option.some.inj hc
    rw [closingBackslashes_concat, Bool.and_eq_true, decide_eq_true_iff]
    split_ifs with hback
    · rw [Nat.odd_add_one, ← ih hs, Bool.not_eq_true', Bool.not_eq_true]
      exact and_iff_right hback
    · exact iff_of_false (fun hand => hback hand.1) Nat.not_odd_zero

/-- What stands for a character leaves an even number of backslashes even. -/
theorem quoteScan_written (m : Markup) (c : CodePoint) :
    m.quoteScan false (m.written c) = some false := by
  by_cases hc : c ∈ escapable
  · revert c
    cases m <;> decide +kernel
  · have hne : ∀ b ∈ escapable, c ≠ b := fun b hb heq => hc (heq ▸ hb)
    have hquote : ¬IsQuote c := by
      rintro (h | h)
      · exact hne _ (by decide) h
      · exact hne _ (by decide) h
    rw [written_of_not_mem hc, quoteScan, if_neg (fun h => hquote h.1), quoteScan,
      decide_eq_false (hne _ (by decide)), Bool.false_and]

theorem quoteScan_escapedMarkup (m : Markup) (t : Text) :
    m.quoteScan false (t.escapedMarkup m) = some false := by
  induction t with
  | nil => rfl
  | cons c t ih =>
    rw [escapedMarkup_cons, quoteScan_append, quoteScan_written, Option.bind_some, ih]

theorem odd_of_isQuote (h : t.escapedMarkup m = s ++ c :: r) (hc : IsQuote c) :
    m = resourceString ∧ Odd (closingBackslashes s) := by
  have hscan := quoteScan_escapedMarkup m t
  rw [h, quoteScan_append] at hscan
  obtain ⟨odd, hs, hrest⟩ := Option.bind_eq_some_iff.1 hscan
  rw [quoteScan] at hrest
  split_ifs at hrest with hbad
  have hgood : m = resourceString ∧ odd := by
    by_contra hnot
    exact hbad ⟨hc, hnot⟩
  exact ⟨hgood.1, (odd_of_quoteScan hs).1 hgood.2⟩

end Quotes

/-- No control, no `<` and no `>` is left in an escaped text, every `&` in it starts an entity, and
a quote stands only in a string resource and there only after an odd number of backslashes. The
text with its entities replaced is the layer of backslashes. -/
theorem escapedMarkup_layers (m : Markup) (t : Text) :
    (∀ c ∈ t.escapedMarkup m, 0x1F < c.val ∧ c ≠ '<' ∧ c ≠ '>')
    ∧ (∀ s r, t.escapedMarkup m = s ++ CodePoint.ofChar '&' :: r →
        ∃ e ∈ entities, e.1 <+: CodePoint.ofChar '&' :: r)
    ∧ (∀ s c r, t.escapedMarkup m = s ++ c :: r → IsQuote c →
        m = resourceString ∧ Odd (closingBackslashes s))
    ∧ resolved (t.escapedMarkup m) = t.flatMap m.backslashed :=
  ⟨fun _ => of_mem_escapedMarkup, ampersandsStart_escapedMarkup m t,
    fun _ _ _ => odd_of_isQuote, resolved_escapedMarkup m t⟩

end Markup

end JavaLiteral
