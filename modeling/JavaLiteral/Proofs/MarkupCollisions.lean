import JavaLiteral.Escape.Markup
import JavaLiteral.Numeral
import JavaLiteral.Proofs.Digits
import Mathlib.Data.Set.Function
import Mathlib.Tactic.Common

/-!
# Texts with the same escaped form

A control code that is written by its number takes up a digit after it, if the two make the number
of another control that is written so (`Markup.clash?`): the escaped form does not tell the two from
that control. Nothing else is lost. Two texts have the same escaped form if and only if they are the
same once their clashes are merged, and each escaped form comes from one text without clashes
(`escapedMarkup_eq_iff`).

The reason is that what stands for a character starts what stands for another one only where these
two clash (`eq_or_clash_of_prefix`), and that a digit in front of an escaped text stands for itself
(`head?_eq_of_isDigit`).
-/

namespace JavaLiteral

namespace Markup

/-- The control codes that a style writes as a backslash and their decimal number. -/
def Numbered : Markup → ℕ → Prop
  | xml, n => n ≤ 31
  | resourceValue, n | resourceString, n => n ≤ 7 ∨ n = 11 ∨ 14 ≤ n ∧ n ≤ 31

instance : ∀ (m : Markup) (n : ℕ), Decidable (m.Numbered n)
  | xml, n => inferInstanceAs (Decidable (n ≤ 31))
  | resourceValue, n | resourceString, n =>
    inferInstanceAs (Decidable (n ≤ 7 ∨ n = 11 ∨ 14 ≤ n ∧ n ≤ 31))

/-- The control that is written like another one and a digit after it, if there is one. -/
def clash? (m : Markup) (c d : CodePoint) : Option CodePoint :=
  let n := 10 * c.val + (d.val - 0x30)
  if 1 ≤ c.val ∧ c.val ≤ 9 ∧ m.Numbered c.val ∧ d.isDigit ∧ m.Numbered n then CodePoint.ofNat? n
  else none

/-- The text with each clash, from the left, replaced by the control that is written like it. -/
def merged (m : Markup) : Text → Text
  | [] => []
  | [c] => [c]
  | c :: d :: t =>
    match m.clash? c d with
    | some e => e :: m.merged t
    | none => c :: m.merged (d :: t)

/-- No control is followed by a digit that it clashes with. -/
def ClashFree (m : Markup) (t : Text) : Prop := t.IsChain fun c d => m.clash? c d = none

/-- What stands for a character. -/
def written (m : Markup) (c : CodePoint) : Text := (c.markupEscape? m).getD [c]

/-- The controls. -/
def controls : List CodePoint := (List.range 32).filterMap CodePoint.ofNat?

/-- The characters with an escape, which are the same in all styles. -/
def escapable : List CodePoint :=
  controls ++ ['&', '<', '>', '"', '\'', '\\'].map CodePoint.ofChar

/-- The digits. -/
def digits : List CodePoint := "0123456789".toList.map CodePoint.ofChar

variable {m : Markup} {c d e : CodePoint} {s t : Text}

theorem mem_controls : c ∈ controls ↔ c.val ≤ 31 := by
  unfold controls
  rw [List.mem_filterMap]
  constructor
  · rintro ⟨n, hn, hc⟩
    have := List.mem_range.1 hn
    rw [CodePoint.ofNat?_eq_some.1 hc]
    omega
  · exact fun h => ⟨c.val, List.mem_range.2 (by omega), CodePoint.ofNat?_eq_some.2 rfl⟩

theorem mem_digits (h : d.isDigit) : d ∈ digits := by
  have hval : d.val ∈ (List.range 10).map (0x30 + ·) := by
    simp only [CodePoint.isDigit, Bool.and_eq_true, decide_eq_true_eq] at h
    exact List.mem_map.2 ⟨d.val - 0x30, List.mem_range.2 (by omega), by omega⟩
  have hmap : (List.range 10).map (0x30 + ·) = digits.map CodePoint.val := by decide
  rw [hmap] at hval
  obtain ⟨d', hd', heq⟩ := List.mem_map.1 hval
  rwa [← CodePoint.ext heq]

theorem markupEscape?_of_not_mem (h : c ∉ escapable) : c.markupEscape? m = none := by
  have hval : ¬c.val ≤ 0x1F := fun hle => h (List.mem_append_left _ (mem_controls.2 hle))
  have hne : ∀ b ∈ escapable, c ≠ b := fun b hb heq => h (heq ▸ hb)
  have hxml : c.xmlEscape? = none := by
    unfold CodePoint.xmlEscape? CodePoint.entity?
    rw [if_neg hval, if_neg (hne _ (by decide)), if_neg (hne _ (by decide)),
      if_neg (hne _ (by decide)), if_neg (hne _ (by decide)), if_neg (hne _ (by decide)),
      if_neg (hne _ (by decide))]
  have hblank : c.blankEscape? = none := by
    unfold CodePoint.blankEscape?
    rw [if_neg (hne _ (by decide)), if_neg (hne _ (by decide)), if_neg (hne _ (by decide)),
      if_neg (hne _ (by decide)), if_neg (hne _ (by decide))]
  have hquote : c.quoteEscape? = none := by
    unfold CodePoint.quoteEscape?
    rw [if_neg (hne _ (by decide)), if_neg (hne _ (by decide))]
  cases m <;> simp [CodePoint.markupEscape?, hxml, hblank, hquote]

theorem written_of_not_mem (h : c ∉ escapable) : m.written c = [c] := by
  rw [written, markupEscape?_of_not_mem h]
  rfl

theorem escapedMarkup_cons (c : CodePoint) (t : Text) :
    Text.escapedMarkup m (c :: t) = m.written c ++ Text.escapedMarkup m t := List.flatMap_cons

theorem le_of_numbered {n : ℕ} (h : m.Numbered n) : n ≤ 31 := by
  cases m <;> simp only [Numbered] at h <;> omega

/-- The numbered controls are those that are written by their numbers. -/
theorem numbered_iff : m.Numbered c.val
    ↔ c.markupEscape? m = some (CodePoint.ofChar '\\' :: Text.numeral 10 c.val) := by
  by_cases hc : c ∈ escapable
  · revert c
    cases m <;> decide +kernel
  · rw [markupEscape?_of_not_mem hc]
    exact iff_of_false
      (fun h => hc (List.mem_append_left _ (mem_controls.2 (le_of_numbered h)))) nofun

section Clash

theorem clash?_eq_some : m.clash? c d = some e ↔ (1 ≤ c.val ∧ c.val ≤ 9 ∧ m.Numbered c.val
    ∧ d.isDigit ∧ m.Numbered e.val) ∧ e.val = 10 * c.val + (d.val - 0x30) := by
  unfold clash?
  dsimp only
  split_ifs with h
  · rw [CodePoint.ofNat?_eq_some]
    exact ⟨fun he => ⟨he ▸ h, he⟩, fun he => he.2⟩
  · exact iff_of_false nofun fun he => h (he.2 ▸ he.1)

theorem isDigit_of_clash? (h : m.clash? c d = some e) : d.isDigit := (clash?_eq_some.1 h).1.2.2.2.1

/-- What is made of a clash does not clash again. -/
theorem clash?_eq_none_of_clash? (h : m.clash? c d = some e) (d' : CodePoint) :
    m.clash? e d' = none := by
  obtain ⟨⟨h1, -⟩, he⟩ := clash?_eq_some.1 h
  refine Option.eq_none_iff_forall_ne_some.2 fun e' he' => ?_
  have := (clash?_eq_some.1 he').1.2.1
  omega

theorem clash?_eq_none_of_isDigit (hd : d.isDigit = false) : m.clash? c d = none :=
  Option.eq_none_iff_forall_ne_some.2 fun _ he =>
    absurd (isDigit_of_clash? he) (by simp [hd])

theorem written_clash (h : m.clash? c d = some e) : m.written e = m.written c ++ [d] := by
  have htable : ∀ c ∈ controls, ∀ d ∈ digits, ∀ e ∈ m.clash? c d,
      m.written e = m.written c ++ [d] := by
    cases m <;> decide +kernel
  have hc := (clash?_eq_some.1 h).1.2.1
  exact htable c (mem_controls.2 (by omega)) d (mem_digits (isDigit_of_clash? h)) e h

end Clash

theorem head?_written (h : c ∈ escapable) :
    ∃ b ∈ escapable, (m.written c).head? = some b ∧ b.isDigit = false := by
  revert c
  cases m <;> decide +kernel

theorem eq_or_clash_of_prefix_of_mem (hc : c ∈ escapable) (hd : d ∈ escapable)
    (h : m.written c <+: m.written d) : c = d ∨ ∃ e, m.clash? c e = some d := by
  have htable : ∀ c ∈ escapable, ∀ d ∈ escapable, (m.written c).isPrefixOf (m.written d) →
      c = d ∨ ∃ e ∈ digits, m.clash? c e = some d := by
    cases m <;> decide +kernel
  rcases htable c hc d hd (List.isPrefixOf_iff_prefix.2 h) with h | ⟨e, -, he⟩
  · exact .inl h
  · exact .inr ⟨e, he⟩

theorem written_of_isDigit (h : d.isDigit) : m.written d = [d] := by
  have htable : ∀ d ∈ digits, m.written d = [d] := by
    cases m <;> decide
  exact htable d (mem_digits h)

/-- What stands for a character starts what stands for another one only if it clashes with the
digit that is missing. -/
theorem eq_or_clash_of_prefix (h : m.written c <+: m.written d) :
    c = d ∨ ∃ e, m.clash? c e = some d := by
  by_cases hc : c ∈ escapable
  · by_cases hd : d ∈ escapable
    · exact eq_or_clash_of_prefix_of_mem hc hd h
    · obtain ⟨b, hb, hhead, -⟩ := head?_written (m := m) hc
      obtain ⟨r, hr⟩ := h
      rw [written_of_not_mem hd] at hr
      have := congrArg List.head? hr
      rw [List.head?_append, hhead] at this
      obtain rfl : b = d := Option.some.inj this
      exact absurd hb hd
  · rw [written_of_not_mem hc] at h
    obtain ⟨r, hr⟩ := h
    have hhead : some c = (m.written d).head? := congrArg List.head? hr
    by_cases hd : d ∈ escapable
    · obtain ⟨b, hb, hhead', -⟩ := head?_written (m := m) hd
      rw [hhead'] at hhead
      obtain rfl : c = b := Option.some.inj hhead
      exact absurd hb hc
    · rw [written_of_not_mem hd] at hhead
      exact .inl (Option.some.inj hhead)

/-- A digit in front of an escaped text is a character of the text. -/
theorem head?_eq_of_isDigit (hd : d.isDigit)
    (h : (Text.escapedMarkup m t).head? = some d) : t.head? = some d := by
  cases t with
  | nil => exact h
  | cons c t =>
    rw [escapedMarkup_cons, List.head?_append] at h
    by_cases hc : c ∈ escapable
    · obtain ⟨b, -, hhead, hb⟩ := head?_written (m := m) hc
      rw [hhead] at h
      obtain rfl : b = d := Option.some.inj h
      rw [hd] at hb
      cases hb
    · rw [written_of_not_mem hc] at h
      exact h

theorem written_ne_nil (c : CodePoint) : m.written c ≠ [] := by
  by_cases hc : c ∈ escapable
  · obtain ⟨b, -, hhead, -⟩ := head?_written (m := m) hc
    rintro h
    rw [h] at hhead
    cases hhead
  · rw [written_of_not_mem hc]
    exact List.cons_ne_nil _ _

/-- Where two escaped texts are the same, so are their first characters, unless the first character
of one of them clashes with its second one. -/
theorem eq_of_written_append_eq {a b : Text} (ha : m.ClashFree (c :: a))
    (h : m.written c ++ Text.escapedMarkup m a = m.written d ++ Text.escapedMarkup m b)
    (hle : (m.written c).length ≤ (m.written d).length) : c = d := by
  have hprefix : m.written c <+: m.written d :=
    List.prefix_of_prefix_length_le (List.prefix_append _ _) (h.symm ▸ List.prefix_append _ _) hle
  rcases eq_or_clash_of_prefix hprefix with heq | ⟨e, he⟩
  · exact heq
  · exfalso
    rw [written_clash he, List.append_assoc, List.append_right_inj] at h
    have hhead := head?_eq_of_isDigit (isDigit_of_clash? he) (congrArg List.head? h)
    have hnone := (List.isChain_cons.1 ha).1 e hhead
    rw [he] at hnone
    cases hnone

theorem escapedMarkup_injOn : Set.InjOn (Text.escapedMarkup m) {t | m.ClashFree t} := by
  intro a ha b hb hab
  induction a generalizing b with
  | nil =>
    cases b with
    | nil => rfl
    | cons d b => exact absurd (List.append_eq_nil_iff.1 hab.symm).1 (written_ne_nil d)
  | cons c a ih =>
    cases b with
    | nil => exact absurd (List.append_eq_nil_iff.1 hab).1 (written_ne_nil c)
    | cons d b =>
      simp only [escapedMarkup_cons] at hab
      obtain rfl : c = d := by
        rcases Nat.le_total (m.written c).length (m.written d).length with hle | hle
        · exact eq_of_written_append_eq ha hab hle
        · exact (eq_of_written_append_eq hb hab.symm hle).symm
      rw [ih (List.IsChain.tail ha) (List.IsChain.tail hb) (List.append_cancel_left hab)]
      rfl

theorem escapedMarkup_merged (m : Markup) (t : Text) :
    Text.escapedMarkup m (m.merged t) = Text.escapedMarkup m t := by
  fun_induction merged m t with
  | case1 => rfl
  | case2 c => rfl
  | case3 c d t e he ih =>
    rw [escapedMarkup_cons, escapedMarkup_cons, escapedMarkup_cons, ih, written_clash he,
      written_of_isDigit (isDigit_of_clash? he), List.append_assoc]
  | case4 c d t he ih => rw [escapedMarkup_cons, ih, ← escapedMarkup_cons]

theorem merged_of_clashFree (h : m.ClashFree t) : m.merged t = t := by
  fun_induction merged m t with
  | case1 => rfl
  | case2 c => rfl
  | case3 c d t e he ih =>
    have := (List.isChain_cons_cons.1 h).1
    rw [he] at this
    cases this
  | case4 c d t he ih => rw [ih (List.isChain_cons_cons.1 h).2]

theorem head?_merged (h : (m.merged (c :: t)).head? = some e) : e = c ∨ e.isDigit = false := by
  cases t with
  | nil => exact .inl (Option.some.inj h).symm
  | cons d t =>
    rw [merged] at h
    split at h
    · rename_i e' he'
      obtain rfl : e' = e := Option.some.inj h
      obtain ⟨⟨-, -, -, -, hn⟩, -⟩ := clash?_eq_some.1 he'
      have hle := le_of_numbered hn
      refine .inr ?_
      simp only [CodePoint.isDigit, Bool.and_eq_false_iff, decide_eq_false_iff_not]
      omega
    · exact .inl (Option.some.inj h).symm

theorem clashFree_merged (m : Markup) (t : Text) : m.ClashFree (m.merged t) := by
  fun_induction merged m t with
  | case1 => exact .nil
  | case2 c => exact .singleton c
  | case3 c d t e he ih =>
    exact List.isChain_cons.2 ⟨fun y _ => clash?_eq_none_of_clash? he y, ih⟩
  | case4 c d t he ih =>
    refine List.isChain_cons.2 ⟨fun y hy => ?_, ih⟩
    rcases head?_merged hy with rfl | hdigit
    · exact he
    · exact clash?_eq_none_of_isDigit hdigit

/-- Two texts have the same escaped form in a style if and only if they are the same once their
clashes are merged. So no two texts without clashes share one, and the escaped form of every text
is that of exactly one text without clashes. -/
theorem escapedMarkup_eq_iff (m : Markup) :
    (∀ c : CodePoint, m.Numbered c.val
      ↔ c.markupEscape? m = some (CodePoint.ofChar '\\' :: Text.numeral 10 c.val))
    ∧ (∀ a b : Text, a.escapedMarkup m = b.escapedMarkup m ↔ m.merged a = m.merged b)
    ∧ Set.InjOn (Text.escapedMarkup m) {t | m.ClashFree t}
    ∧ ∀ a : Text, ∃! b : Text, m.ClashFree b ∧ b.escapedMarkup m = a.escapedMarkup m := by
  have hmerged : ∀ a b : Text, a.escapedMarkup m = b.escapedMarkup m ↔ m.merged a = m.merged b := by
    refine fun a b => ⟨fun h => ?_, fun h => ?_⟩
    · refine escapedMarkup_injOn (clashFree_merged m a) (clashFree_merged m b) ?_
      rw [escapedMarkup_merged, escapedMarkup_merged, h]
    · rw [← escapedMarkup_merged m a, ← escapedMarkup_merged m b, h]
  refine ⟨fun c => numbered_iff, hmerged, escapedMarkup_injOn,
    fun a => ⟨m.merged a, ⟨clashFree_merged m a, escapedMarkup_merged m a⟩, fun b hb => ?_⟩⟩
  rw [← merged_of_clashFree hb.1]
  exact (hmerged b a).1 hb.2

example : xml.merged (Text.ofString "\x0123\x019") = Text.ofString "\x0C3\x13"
    ∧ resourceValue.merged (Text.ofString "\x0123\x019") = Text.ofString "\x0123\x13" := by
  decide

end Markup

end JavaLiteral
