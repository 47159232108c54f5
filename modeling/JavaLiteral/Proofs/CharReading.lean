import JavaLiteral.Proofs.IntegerExpression
import JavaLiteral.Proofs.StringReading

/-!
# A char literal is read as its code

Once the Unicode escapes of a source are translated, an expression for a `char` is a char literal,
an integer expression, or an integer expression that is cast to `char` (`charExpression?`). A char
literal holds one unit or one escape sequence (`charBody?`). A variable of type `char` is
initialised with a constant of that type, or with a constant short of `long` that is the code of a
unit (`Constant.initialChar?`).

Every argument that stands for the code of a unit has a literal, and the literal initialises a
variable with that code, whatever may stand raw in it; all other arguments are refused
(`CharArgument.literal_initialises_char`).
-/

namespace JavaLiteral

namespace Source

/-- An expression for a `char`. -/
inductive CharExpression where
  | literal (unit : ℕ)
  | integer (e : IntegerExpression)
  | cast (e : IntegerExpression)
deriving DecidableEq

/-- The static type of a constant. -/
inductive ConstantType where
  | char
  | signed (t : IntType)
deriving DecidableEq

/-- A constant with its static type. -/
structure Constant where
  type : ConstantType
  value : ℤ
deriving DecidableEq

/-- The value that a variable of type `char` gets from a constant, if Java accepts that. -/
def Constant.initialChar? (x : Constant) : Option ℤ :=
  match x.type with
  | .char => some x.value
  | .signed t => if t ≠ .long ∧ 0 ≤ x.value ∧ x.value ≤ 0xFFFF then some x.value else none

/-- The constant that an expression is. A cast to `char` keeps sixteen bits. -/
def CharExpression.evaluate? : CharExpression → Option Constant
  | literal u => some ⟨.char, u⟩
  | integer e => e.evaluate?.map fun x => ⟨.signed x.type, x.value⟩
  | cast e => e.evaluate?.map fun x => ⟨.char, x.value % 0x10000⟩

/-- Reads a char literal after its opening quote to the end of the source. It holds one escape
sequence, or one unit that is no quote and ends no line. -/
def charBody? : List ℕ → Option ℕ
  | [] => none
  | u :: us =>
    if u = 0x5C then
      (escapeSequence? us).bind fun r => if us.drop r.2 = [0x27] then some r.1 else none
    else if u ≠ 0x27 ∧ u ≠ 0x0A ∧ u ≠ 0x0D ∧ us = [0x27] then some u
    else none

/-- The expression of tokens: an integer expression, with a cast to `char` in front or without. -/
def charTokens? : List Token → Option CharExpression
  | .opening :: .word w :: .closing :: ts =>
    if w = "char" then (expression? ts).map .cast
    else (expression? (.opening :: .word w :: .closing :: ts)).map .integer
  | ts => (expression? ts).map .integer

/-- The expression for a `char` that a source is, which must be translated to its end. -/
def charExpression? (source : List ℕ) : Option CharExpression :=
  let T := translate source
  let us := T.characters.map InputCharacter.unit
  if T.untranslated ≠ [] then none
  else if us.head? = some 0x27 then (charBody? us.tail).map .literal
  else ((us.mapM CodePoint.ofNat?).bind tokens?).bind charTokens?

section Quoted

/-- Units of a source that a char literal may hold, where they are read as one unit. -/
def ReadsChar (w : List ℕ) (u : ℕ) : Prop :=
  ∃ cs : List InputCharacter, (∀ s, translateFrom false (w ++ s) = (translateFrom false s).after cs)
    ∧ charBody? (cs.map InputCharacter.unit ++ [0x27]) = some u

variable {u v : ℕ} {w : List ℕ} {c : CodePoint}

theorem charBody?_unit (hq : u ≠ 0x27) (hb : u ≠ 0x5C) (hl : u ≠ 0x0A) (hr : u ≠ 0x0D) :
    charBody? [u, 0x27] = some u := by
  rw [charBody?, if_neg hb, if_pos ⟨hq, hl, hr, rfl⟩]

theorem readsChar_unit (hq : u ≠ 0x27) (hb : u ≠ 0x5C) (hl : u ≠ 0x0A) (hr : u ≠ 0x0D) :
    ReadsChar [u] u :=
  ⟨[⟨u, [u]⟩], translateFrom_of_ne hb false, charBody?_unit hq hb hl hr⟩

theorem readsChar_unitEscape (hu : u < 0x10000) (hq : u ≠ 0x27) (hb : u ≠ 0x5C) (hl : u ≠ 0x0A)
    (hr : u ≠ 0x0D) : ReadsChar (Text.units (CodePoint.unitEscape u)) u :=
  ⟨[⟨u, Text.units (CodePoint.unitEscape u)⟩], translateFrom_unitEscape hu,
    charBody?_unit hq hb hl hr⟩

theorem readsChar_letter (hu : u ≠ 0x75) (hv : letterUnit? u = some v) :
    ReadsChar [0x5C, u] v := by
  refine ⟨[⟨0x5C, [0x5C]⟩, ⟨u, [u]⟩], translateFrom_letter hu, ?_⟩
  have hescape : escapeSequence? [u, 0x27] = some (v, 1) := by
    simp [escapeSequence?, hv]
  rw [List.map_cons, List.map_cons, List.map_nil, List.cons_append, List.cons_append,
    List.nil_append, charBody?, if_pos rfl, hescape, Option.bind_some]
  exact if_pos rfl

theorem units_unicodeEscape_of_lt (h : c.val < 0x10000) :
    Text.units c.unicodeEscape = Text.units (CodePoint.unitEscape c.val) := by
  rw [units_unicodeEscape, CodePoint.units_of_lt h, List.flatMap_singleton]

/-- A char is written in quotes as something that is read as its code, or it is the number of its
code. -/
theorem charForm_cases (p : CodePoint → Bool) (escapeUnicode : Bool) (h : c.val < 0x10000) :
    (c.charForm escapeUnicode).answer p = .number c.val
      ∨ ∃ body, (c.charForm escapeUnicode).answer p = .quoted body
        ∧ ReadsChar (Text.units body) c.val := by
  unfold CodePoint.charForm
  -- The letter escapes are those of a string, where a single quote stands for itself.
  by_cases hquote : c = '\''
  · rw [if_pos hquote]
    subst hquote
    exact .inr ⟨_, rfl, readsChar_letter (u := 0x27) (by decide) rfl⟩
  rw [if_neg hquote]
  split
  · rename_i t ht
    obtain ⟨-, u, hunits, hu, hletter⟩ := letterEscape?_units ht hquote
    refine .inr ⟨t, rfl, ?_⟩
    rw [hunits]
    exact readsChar_letter hu hletter
  · rename_i hnone
    have hunit : c.val ∈ c.units := by rw [CodePoint.units_of_lt h]; exact List.mem_singleton_self _
    obtain ⟨-, hb, hl, hr⟩ := unit_ne_of_letterEscape? hnone hunit
    have hq : c.val ≠ 0x27 := fun hval => hquote (CodePoint.ext hval)
    split_ifs
    · refine .inr ⟨_, rfl, ?_⟩
      rw [units_unicodeEscape_of_lt h]
      exact readsChar_unitEscape h hq hb hl hr
    · rw [Consult.answer_map, Consult.answer_printable]
      split_ifs
      · refine .inr ⟨_, rfl, ?_⟩
        rw [Text.units_cons, Text.units_nil, List.append_nil, CodePoint.units_of_lt h]
        exact readsChar_unit hq hb hl hr
      · exact .inl rfl

theorem charExpression?_quoted (h : ReadsChar w u) :
    charExpression? (0x27 :: (w ++ [0x27])) = some (.literal u) := by
  obtain ⟨cs, ht, hbody⟩ := h
  have htranslate : translate (0x27 :: (w ++ [0x27]))
      = ⟨⟨0x27, [0x27]⟩ :: (cs ++ [⟨0x27, [0x27]⟩]), []⟩ := by
    rw [translate, translateFrom_of_ne (by decide), ht, translateFrom_of_ne (by decide),
      translateFrom, Translation.after_after, Translation.after_after]
    simp [Translation.after]
  rw [charExpression?, htranslate]
  dsimp only
  rw [if_neg (by simp), List.map_cons, List.head?_cons, if_pos rfl, List.tail_cons,
    List.map_append, List.map_singleton, hbody]
  rfl

end Quoted

section Number

theorem translateFrom_of_not_mem : ∀ {s : List ℕ}, 0x5C ∉ s →
    translateFrom false s = ⟨s.map fun u => ⟨u, [u]⟩, []⟩
  | [], _ => by rw [translateFrom]; rfl
  | u :: s, h => by
    rw [List.mem_cons, not_or] at h
    rw [translateFrom_of_ne (Ne.symm h.1), translateFrom_of_not_mem h.2]
    rfl

variable {t : Text} {n : ℕ}

theorem units_eq_map (h : ∀ c ∈ t, c.val < 0x10000) : t.units = t.map CodePoint.val := by
  rw [Text.units, ← List.flatMap_singleton' (t.map CodePoint.val), List.flatMap_map]
  exact List.flatMap_congr fun c hc => CodePoint.units_of_lt (h c hc)

theorem mapM_ofNat?_val (t : Text) : (t.map CodePoint.val).mapM CodePoint.ofNat? = some t := by
  induction t with
  | nil => rfl
  | cons c t ih =>
    rw [List.map_cons, List.mapM_cons, ih, CodePoint.ofNat?_eq_some.2 rfl]
    rfl

/-- A source without quotes and backslashes is read by its tokens. -/
theorem charExpression?_units
    (h : ∀ c ∈ t, c.val < 0x10000 ∧ c.val ≠ 0x27 ∧ c.val ≠ 0x5C) :
    charExpression? t.units = (tokens? t).bind charTokens? := by
  have hmem : 0x5C ∉ t.map CodePoint.val := by
    intro hmem
    obtain ⟨c, hc, hval⟩ := List.mem_map.1 hmem
    exact (h c hc).2.2 hval
  have hhead : (t.map CodePoint.val).head? ≠ some 0x27 := by
    intro hhead
    obtain ⟨c, hc, hval⟩ := List.mem_map.1 (List.mem_of_head? hhead)
    exact (h c hc).2.1 hval
  have hunits : (t.map CodePoint.val).map (InputCharacter.unit ∘ fun u => ⟨u, [u]⟩)
      = t.map CodePoint.val := List.map_id _
  rw [units_eq_map fun c hc => (h c hc).1, charExpression?, translate,
    translateFrom_of_not_mem hmem]
  dsimp only
  rw [if_neg (by simp), List.map_map, hunits, if_neg hhead, mapM_ofNat?_val, Option.bind_some]

theorem numeral_char (n : ℕ) : ∀ c ∈ Text.numeral 10 n,
    isWordPart c ∧ c.val < 0x10000 ∧ c.val ≠ 0x27 ∧ c.val ≠ 0x5C := by
  intro c hc
  have hword := ((isNumeral_decimal n).parts c hc).1
  have hcode := hword
  simp only [isWordPart, Bool.or_eq_true, Bool.and_eq_true, decide_eq_true_iff] at hcode
  exact ⟨hword, by omega, by omega, by omega⟩

theorem tokens?_numeral (n : ℕ) : tokens? (Text.numeral 10 n) = some [.word (Text.numeral 10 n)] :=
  tokens?_word (isNumeral_decimal n).ne_nil fun c hc => (numeral_char n c hc).1

theorem expression?_numeral (n : ℕ) :
    expression? [.word (Text.numeral 10 n)] = some (.literal ⟨n, true, false⟩) := by
  have h := integerExpression?_suffix (isNumeral_decimal n) false
  rwa [suffix, if_neg (by decide), List.append_nil, integerExpression?, tokens?_numeral,
    Option.bind_some] at h

theorem charExpression?_number (n : ℕ) :
    charExpression? (Text.units (CharForm.render false (.number n)))
      = some (.integer (.literal ⟨n, true, false⟩)) := by
  rw [CharForm.render, if_neg (by decide),
    charExpression?_units fun c hc => (numeral_char n c hc).2, tokens?_numeral, Option.bind_some]
  exact congrArg (Option.map CharExpression.integer) (expression?_numeral n)

theorem charExpression?_castNumber (n : ℕ) :
    charExpression? (Text.units (CharForm.render true (.number n)))
      = some (.cast (.literal ⟨n, true, false⟩)) := by
  have hcast : Text.ofString "(char) "
      = Text.ofString "(" ++ Text.ofString "char" ++ Text.ofString ") " := rfl
  have hchars : ∀ c ∈ Text.ofString "(char) ",
      c.val < 0x10000 ∧ c.val ≠ 0x27 ∧ c.val ≠ 0x5C := by decide
  have hall : ∀ c ∈ Text.ofString "(char) " ++ Text.numeral 10 n,
      c.val < 0x10000 ∧ c.val ≠ 0x27 ∧ c.val ≠ 0x5C := fun c hc =>
    (List.mem_append.1 hc).elim (hchars c) fun hc => (numeral_char n c hc).2
  rw [CharForm.render, if_pos rfl, charExpression?_units hall, hcast,
    tokens?_parenthesized (by decide) (by decide), tokens?_numeral, Option.map_some,
    Option.bind_some, charTokens?, if_pos rfl, expression?_numeral]
  rfl

theorem evaluate?_numeral {n : ℕ} (h : n < 0x10000) :
    IntegerExpression.evaluate? (.literal ⟨n, true, false⟩) = some ⟨.int, n⟩ := by
  have hle : (n : ℤ) ≤ IntType.int.maxValue := by
    have hmax : IntType.int.maxValue = 0x7FFFFFFF := by decide
    omega
  have htype : IntegerLiteral.type ⟨n, true, false⟩ = .int := rfl
  rw [IntegerExpression.evaluate?, IntegerLiteral.evaluate?, if_pos rfl, htype, if_pos hle]

end Number

/-- What a char is written as initialises a variable with its code. -/
theorem charForm_initialises (p : CodePoint → Bool) (escapeUnicode cast : Bool) {c : CodePoint}
    (h : c.val < 0x10000) :
    ∃ e x, charExpression? (((c.charForm escapeUnicode).answer p).render cast).units = some e
      ∧ e.evaluate? = some x ∧ x.initialChar? = some (c.val : ℤ) ∧ (cast → x.type = .char) := by
  obtain hnumber | ⟨body, hbody, hreads⟩ := charForm_cases p escapeUnicode h
  · have hvalue := evaluate?_numeral h
    rw [hnumber]
    cases cast with
    | false =>
      have hrange : IntType.int ≠ .long ∧ (0 : ℤ) ≤ c.val ∧ (c.val : ℤ) ≤ 0xFFFF :=
        ⟨by decide, by omega, by omega⟩
      refine ⟨_, ⟨.signed .int, c.val⟩, charExpression?_number c.val, ?_, if_pos hrange,
        fun hcast => absurd hcast Bool.false_ne_true⟩
      rw [CharExpression.evaluate?, hvalue, Option.map_some]
    | true =>
      have hkept : (c.val : ℤ) % 0x10000 = c.val := Int.emod_eq_of_lt (by omega) (by omega)
      refine ⟨_, ⟨.char, c.val⟩, charExpression?_castNumber c.val, ?_, rfl, fun _ => rfl⟩
      rw [CharExpression.evaluate?, hvalue, Option.map_some, hkept]
  · refine ⟨.literal c.val, ⟨.char, c.val⟩, ?_, rfl, rfl, fun _ => rfl⟩
    rw [hbody, CharForm.render, List.cons_append, Text.units_cons, Text.units_append]
    exact charExpression?_quoted hreads

end Source

namespace CharArgument

open Source

/-- An argument stands for the code of its only character, or for the number that it is. -/
inductive StandsFor : CharArgument → ℤ → Prop
  | text (c : CodePoint) : StandsFor (.text [c]) c.val
  | code (n : ℤ) : StandsFor (.code n) n

variable {a : CharArgument} {n : ℤ} {e : CharError}

theorem number_eq_ok : a.number = .ok n ↔ a.StandsFor n := by
  constructor
  · intro h
    match a with
    | .text [c] =>
      obtain rfl := Except.ok.inj h
      exact .text c
    | .code m =>
      obtain rfl := Except.ok.inj h
      exact .code m
  · rintro ⟨⟩ <;> rfl

theorem number_eq_error :
    a.number = .error e ↔ ∃ t, e = .notSingle t ∧ a = .text t ∧ t.length ≠ 1 := by
  constructor
  · intro h
    match a with
    | .text [] =>
      obtain rfl := Except.error.inj h
      exact ⟨[], rfl, rfl, by decide⟩
    | .text (c :: d :: t) =>
      obtain rfl := Except.error.inj h
      exact ⟨_, rfl, rfl, by simp⟩
  · rintro ⟨t, rfl, rfl, ht⟩
    match t with
    | [] => rfl
    | [c] => exact absurd rfl ht
    | c :: d :: t => rfl

theorem codePoint_eq_ok (c : CodePoint) (h : a.StandsFor c.val) (hle : c.val ≤ 0xFFFF) :
    a.codePoint = .ok c := by
  rw [codePoint, number_eq_ok.2 h]
  exact dif_pos ⟨by omega, by omega⟩

theorem codePoint_eq_error : a.codePoint = .error e
    ↔ a.number = .error e ∨ ∃ n, e = .notUnit n ∧ a.number = .ok n ∧ ¬(0 ≤ n ∧ n ≤ 0xFFFF) := by
  unfold codePoint
  cases a.number with
  | error e' => simp [Bind.bind, Except.bind]
  | ok m =>
    simp only [Bind.bind, Except.bind, reduceCtorEq, false_or, Except.ok.injEq]
    split_ifs with hm
    · have hno : ¬∃ n, e = .notUnit n ∧ m = n ∧ ¬(0 ≤ n ∧ n ≤ 0xFFFF) := by
        rintro ⟨n, -, rfl, hn⟩
        exact hn hm
      exact iff_of_false not_false hno
    · rw [Except.error.injEq]
      refine ⟨fun he => ⟨m, he.symm, rfl, hm⟩, ?_⟩
      rintro ⟨n, rfl, rfl, -⟩
      rfl

theorem literal_eq_error {escapeUnicode cast : Bool} :
    a.literal escapeUnicode cast = .error e ↔ a.codePoint = .error e := by
  rw [literal]
  cases a.codePoint <;> simp [Bind.bind, Except.bind]

theorem answer_literal {c : CodePoint} (h : a.codePoint = .ok c) (escapeUnicode cast : Bool)
    (p : CodePoint → Bool) :
    (a.literal escapeUnicode cast).map (Consult.answer p)
      = .ok (((c.charForm escapeUnicode).answer p).render cast) := by
  rw [literal, h]
  exact congrArg Except.ok (Consult.answer_map p _ _)

/-- **Char literals are read back.** An argument has no char literal exactly if it is a text of
another length than one or the number it stands for is no UTF-16 unit. Any other one has a literal,
whatever is printable, that Java accepts as initialiser of a variable of type `char`. The variable
gets the code, and if casts are wanted the initialiser has type `char` itself. -/
theorem literal_initialises_char (a : CharArgument) (escapeUnicode cast : Bool)
    (p : CodePoint → Bool) :
    (∀ error, a.literal escapeUnicode cast = .error error
      ↔ (∃ t, error = .notSingle t ∧ a = .text t ∧ t.length ≠ 1)
        ∨ ∃ n, error = .notUnit n ∧ a.StandsFor n ∧ ¬(0 ≤ n ∧ n ≤ 0xFFFF))
    ∧ ∀ n, a.StandsFor n → 0 ≤ n → n ≤ 0xFFFF →
      ∃ literal e x, (a.literal escapeUnicode cast).map (Consult.answer p) = .ok literal
        ∧ charExpression? literal.units = some e
        ∧ e.evaluate? = some x
        ∧ x.initialChar? = some n
        ∧ (cast → x.type = .char) := by
  refine ⟨fun error => ?_, fun n hn h0 hle => ?_⟩
  · simp only [literal_eq_error, codePoint_eq_error, number_eq_error, number_eq_ok]
  · obtain ⟨m, rfl⟩ := Int.eq_ofNat_of_zero_le h0
    let c : CodePoint := ⟨m, by omega⟩
    have hc : a.codePoint = .ok c := codePoint_eq_ok c hn (show m ≤ 0xFFFF by omega)
    obtain ⟨e, x, hread, hvalue⟩ := charForm_initialises p escapeUnicode cast (c := c)
      (show m < 0x10000 by omega)
    exact ⟨_, e, x, answer_literal hc escapeUnicode cast p, hread, hvalue⟩

end CharArgument

end JavaLiteral
