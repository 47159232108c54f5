import JavaLiteral.Escape.Source
import JavaLiteral.Proofs.Translation

/-!
# A string literal is read as the text it stands for

Java reads a string literal in two phases: the Unicode escapes of the source are translated, and
what comes of that is read up to the first unescaped quote, with the escape sequences that a
backslash starts (`readString`). The literal of a text is read as the UTF-16 units of the text, and
what follows it is left unread, whatever it is and whichever code points stand raw
(`readString_stringLiteral`).

Each code point is written so that the number of backslashes before the next one is even again,
and so that no escape sequence reaches past it (`Reads`); the pieces therefore can be read one by
one.
-/

namespace JavaLiteral

namespace Source

/-- The unit that a letter, a quote or a backslash names after a backslash. -/
def letterUnit? (u : ℕ) : Option ℕ :=
  if u = 0x62 then some 0x08
  else if u = 0x73 then some 0x20
  else if u = 0x74 then some 0x09
  else if u = 0x6E then some 0x0A
  else if u = 0x66 then some 0x0C
  else if u = 0x72 then some 0x0D
  else if u = 0x22 ∨ u = 0x27 ∨ u = 0x5C then some u
  else none

/-- The octal digits at the start of a text that belong to one escape sequence: at most three, and
at most two if the first is not one of 0 to 3. -/
def octalDigits (us : List ℕ) : List ℕ :=
  (us.takeWhile fun u => 0x30 ≤ u ∧ u ≤ 0x37).take
    (if us.head?.any fun u => u ≤ 0x33 then 3 else 2)

/-- The unit that an escape sequence names, and how many characters it takes after its
backslash. -/
def escapeSequence? (us : List ℕ) : Option (ℕ × ℕ) :=
  match us.head?.bind letterUnit? with
  | some v => some (v, 1)
  | none =>
    let ds := octalDigits us
    if ds = [] then none else some (ds.foldl (fun n d => 8 * n + (d - 0x30)) 0, ds.length)

/-- The part of a string literal after its opening quote, as it has been read: the units of the
source it took, the units it denotes, and the characters after its closing quote. -/
structure StringBody where
  source : List ℕ
  value : List ℕ
  rest : List InputCharacter
deriving DecidableEq

/-- What is read with some characters in front, which denote units. -/
def StringBody.after (cs : List InputCharacter) (v : List ℕ) (b : StringBody) : StringBody :=
  ⟨cs.flatMap InputCharacter.raw ++ b.source, v ++ b.value, b.rest⟩

/-- Reads a string literal after its opening quote, up to the first quote that is not escaped.
There must be no line feed and no carriage return before it. -/
def stringBody? : List InputCharacter → Option StringBody
  | [] => none
  | c :: cs =>
    if c.unit = 0x22 then some ⟨c.raw, [], cs⟩
    else if c.unit = 0x0A ∨ c.unit = 0x0D then none
    else if c.unit = 0x5C then do
      let (v, n) ← escapeSequence? (cs.map InputCharacter.unit)
      (stringBody? (cs.drop n)).map (.after (c :: cs.take n) [v])
    else (stringBody? cs).map (.after [c] [c.unit])
termination_by cs => cs.length
decreasing_by
  · simp only [List.length_drop, List.length_cons]
    omega
  · simp

/-- A string literal at the start of a source: its own units, the units of its value, and the
source after it, which is translated but not read. -/
structure StringReading where
  literal : List ℕ
  value : List ℕ
  unread : Translation
deriving DecidableEq

/-- Reads the string literal that a source starts with. Text blocks are not considered. -/
def readString (source : List ℕ) : Option StringReading :=
  let T := translate source
  match T.characters with
  | [] => none
  | c :: cs =>
    if c.unit = 0x22 then
      (stringBody? cs).map fun b => ⟨c.raw ++ b.source, b.value, ⟨b.rest, T.untranslated⟩⟩
    else none

theorem stringBody?_quote (cs : List InputCharacter) (raw : List ℕ) :
    stringBody? (⟨0x22, raw⟩ :: cs) = some ⟨raw, [], cs⟩ := by
  rw [stringBody?, if_pos rfl]

theorem stringBody?_unit {c : InputCharacter} (hq : c.unit ≠ 0x22) (hb : c.unit ≠ 0x5C)
    (hl : c.unit ≠ 0x0A) (hr : c.unit ≠ 0x0D) (cs : List InputCharacter) :
    stringBody? (c :: cs) = (stringBody? cs).map (.after [c] [c.unit]) := by
  rw [stringBody?, if_neg hq, if_neg (by simp [hl, hr]), if_neg hb]

theorem stringBody?_letter {c d : InputCharacter} {v : ℕ} (hc : c.unit = 0x5C)
    (hd : letterUnit? d.unit = some v) (cs : List InputCharacter) :
    stringBody? (c :: d :: cs) = (stringBody? cs).map (.after [c, d] [v]) := by
  rw [stringBody?, if_neg (by simp [hc]), if_neg (by simp [hc]), if_pos hc]
  simp [escapeSequence?, hd]

/-- Units of a source that are read as units of a string, wherever an even number of backslashes
stands before them, whatever comes after them. -/
def Reads (w v : List ℕ) : Prop :=
  ∃ cs : List InputCharacter, cs.flatMap InputCharacter.raw = w
    ∧ (∀ s, translateFrom false (w ++ s) = (translateFrom false s).after cs)
    ∧ ∀ rest, stringBody? (cs ++ rest) = (stringBody? rest).map (.after cs v)

theorem reads_nil : Reads [] [] :=
  ⟨[], rfl, fun s => by simp, fun rest => by
    rw [List.nil_append]
    cases stringBody? rest <;> rfl⟩

theorem reads_append {w v w' v' : List ℕ} (h : Reads w v) (h' : Reads w' v') :
    Reads (w ++ w') (v ++ v') := by
  obtain ⟨cs, hw, ht, hb⟩ := h
  obtain ⟨ds, hw', ht', hb'⟩ := h'
  refine ⟨cs ++ ds, by rw [List.flatMap_append, hw, hw'], fun s => ?_, fun rest => ?_⟩
  · rw [List.append_assoc, ht, ht', Translation.after_after]
  · rw [List.append_assoc, hb, hb']
    cases stringBody? rest <;> simp [StringBody.after]

theorem reads_flatMap {α : Type} {f g : α → List ℕ} :
    ∀ l : List α, (∀ a ∈ l, Reads (f a) (g a)) → Reads (l.flatMap f) (l.flatMap g)
  | [], _ => reads_nil
  | a :: l, h => by
    rw [List.flatMap_cons, List.flatMap_cons]
    exact reads_append (h a List.mem_cons_self)
      (reads_flatMap l fun b hb => h b (List.mem_cons_of_mem a hb))

theorem reads_unit {u : ℕ} (hq : u ≠ 0x22) (hb : u ≠ 0x5C) (hl : u ≠ 0x0A) (hr : u ≠ 0x0D) :
    Reads [u] [u] :=
  ⟨[⟨u, [u]⟩], rfl, translateFrom_of_ne hb false, stringBody?_unit hq hb hl hr⟩

theorem reads_unitEscape {u : ℕ} (hu : u < 0x10000) (hq : u ≠ 0x22) (hb : u ≠ 0x5C)
    (hl : u ≠ 0x0A) (hr : u ≠ 0x0D) : Reads (Text.units (CodePoint.unitEscape u)) [u] :=
  ⟨[⟨u, Text.units (CodePoint.unitEscape u)⟩], by simp, translateFrom_unitEscape hu,
    stringBody?_unit hq hb hl hr⟩

theorem reads_letter {u v : ℕ} (hu : u ≠ 0x75) (hv : letterUnit? u = some v) :
    Reads [0x5C, u] [v] :=
  ⟨[⟨0x5C, [0x5C]⟩, ⟨u, [u]⟩], rfl, translateFrom_letter hu, stringBody?_letter rfl hv⟩

section CodePoints

variable {c : CodePoint}

/-- A single quote stands for itself, and every other letter escape is a backslash and a letter. -/
theorem letterEscape?_units {t : Text} (h : c.letterEscape? = some t) (hq : c ≠ '\'') :
    c.units = [c.val] ∧ ∃ u, t.units = [0x5C, u] ∧ u ≠ 0x75 ∧ letterUnit? u = some c.val := by
  unfold CodePoint.letterEscape? at h
  split_ifs at h <;> obtain rfl := Option.some.inj h <;> subst c
  · exact ⟨rfl, 0x6E, rfl, by decide, rfl⟩
  · exact ⟨rfl, 0x72, rfl, by decide, rfl⟩
  · exact ⟨rfl, 0x74, rfl, by decide, rfl⟩
  · exact ⟨rfl, 0x62, rfl, by decide, rfl⟩
  · exact ⟨rfl, 0x66, rfl, by decide, rfl⟩
  · exact ⟨rfl, 0x22, rfl, by decide, rfl⟩
  · exact ⟨rfl, 0x5C, rfl, by decide, rfl⟩

theorem reads_letterEscape {t : Text} (h : c.letterEscape? = some t) : Reads t.units c.units := by
  by_cases hq : c = '\''
  · subst hq
    obtain rfl := Option.some.inj h
    exact reads_unit (u := 0x27) (by decide) (by decide) (by decide) (by decide)
  · obtain ⟨hunits, u, ht, hu, hletter⟩ := letterEscape?_units h hq
    rw [ht, hunits]
    exact reads_letter hu hletter

/-- A code point without a letter escape is none of those that have to be escaped, and none of its
units is. -/
theorem unit_ne_of_letterEscape? (h : c.letterEscape? = none) {u : ℕ} (hu : u ∈ c.units) :
    u ≠ 0x22 ∧ u ≠ 0x5C ∧ u ≠ 0x0A ∧ u ≠ 0x0D := by
  have hv : c.val ≠ 0x22 ∧ c.val ≠ 0x5C ∧ c.val ≠ 0x0A ∧ c.val ≠ 0x0D := by
    refine ⟨?_, ?_, ?_, ?_⟩ <;> intro hc <;>
      obtain rfl : c = ⟨_, by decide⟩ := CodePoint.ext hc <;> revert h <;> decide
  unfold CodePoint.units at hu
  split at hu
  · obtain rfl := List.mem_singleton.1 hu
    exact hv
  · simp only [List.mem_cons, List.not_mem_nil, or_false] at hu
    omega

theorem reads_raw (h : c.letterEscape? = none) : Reads c.units c.units := by
  have hr := reads_flatMap (f := fun u => [u]) (g := fun u => [u]) c.units fun u hu => by
    obtain ⟨hq, hb, hl, hr⟩ := unit_ne_of_letterEscape? h hu
    exact reads_unit hq hb hl hr
  rwa [List.flatMap_singleton'] at hr

theorem units_unicodeEscape (c : CodePoint) :
    Text.units c.unicodeEscape = c.units.flatMap fun u => Text.units (CodePoint.unitEscape u) := by
  simp [CodePoint.unicodeEscape_eq_flatMap, Text.units, List.flatMap_assoc]

theorem reads_unicodeEscape (h : c.letterEscape? = none) :
    Reads (Text.units c.unicodeEscape) c.units := by
  have hr := reads_flatMap (f := fun u => Text.units (CodePoint.unitEscape u)) (g := fun u => [u])
    c.units fun u hu => by
      obtain ⟨hq, hb, hl, hr⟩ := unit_ne_of_letterEscape? h hu
      exact reads_unitEscape (CodePoint.unit_lt hu) hq hb hl hr
  rwa [List.flatMap_singleton', ← units_unicodeEscape] at hr

/-- Whatever the predicate says, a code point is written as something that is read as its units. -/
theorem reads_escaped (p : CodePoint → Bool) (escapeUnicode : Bool) (c : CodePoint) :
    Reads (Text.units ((c.escaped escapeUnicode).answer p)) c.units := by
  unfold CodePoint.escaped
  split
  · rename_i t ht
    exact reads_letterEscape ht
  · rename_i ht
    have hraw : Reads (Text.units [c]) c.units := by simpa using reads_raw ht
    split_ifs
    · exact reads_unicodeEscape ht
    · exact hraw
    · exact reads_unicodeEscape ht
    · rw [Consult.answer_map, Consult.answer_printable]
      split_ifs
      · exact hraw
      · exact reads_unicodeEscape ht

end CodePoints

theorem reads_escapedBody (p : CodePoint → Bool) (escapeUnicode : Bool) (t : Text) :
    Reads (Text.units ((t.escapedBody escapeUnicode).answer p)) t.units := by
  have h := reads_flatMap t fun c _ => reads_escaped p escapeUnicode c
  simpa [Text.escapedBody, Text.units, List.flatMap_assoc] using h

theorem units_stringLiteral (p : CodePoint → Bool) (escapeUnicode : Bool) (t : Text) :
    Text.units ((t.stringLiteral escapeUnicode).answer p)
      = 0x22 :: (Text.units ((t.escapedBody escapeUnicode).answer p) ++ [0x22]) := by
  simp [Text.stringLiteral, CodePoint.units]

/-- The literal of a text is read to its end and no further, and its value is the text. -/
theorem readString_stringLiteral (p : CodePoint → Bool) (escapeUnicode : Bool) (t : Text)
    (s : List ℕ) :
    readString (Text.units ((t.stringLiteral escapeUnicode).answer p) ++ s)
        = some ⟨Text.units ((t.stringLiteral escapeUnicode).answer p), t.units, translate s⟩
      ∧ (translate s).raw = s := by
  refine ⟨?_, raw_translate s⟩
  obtain ⟨cs, hw, ht, hb⟩ := reads_escapedBody p escapeUnicode t
  rw [units_stringLiteral]
  generalize Text.units ((t.escapedBody escapeUnicode).answer p) = w at hw ht hb
  have hopen : translate (0x22 :: (w ++ [0x22]) ++ s)
      = (translate s).after (⟨0x22, [0x22]⟩ :: cs ++ [⟨0x22, [0x22]⟩]) := by
    rw [translate, List.cons_append, translateFrom_of_ne (by decide), List.append_assoc, ht,
      List.singleton_append, translateFrom_of_ne (by decide), Translation.after_after,
      Translation.after_after]
    rfl
  have hbody : stringBody? (cs ++ ⟨0x22, [0x22]⟩ :: (translate s).characters)
      = some ⟨w ++ [0x22], t.units, (translate s).characters⟩ := by
    rw [hb, stringBody?_quote]
    simp [StringBody.after, hw]
  rw [readString, hopen]
  simp only [Translation.characters_after, List.cons_append, List.append_assoc,
    List.nil_append, if_true, hbody, Option.map_some, Translation.untranslated_after]

end Source

end JavaLiteral
