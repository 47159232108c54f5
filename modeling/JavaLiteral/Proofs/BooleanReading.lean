import Mathlib.Data.Rat.Lemmas
import JavaLiteral.Proofs.IntegerExpression
import JavaLiteral.Validation

/-!
# What is read as a boolean

A field that holds a boolean may be given as one, as a number that is zero or one, or as one of
twelve words (`Boolean.Stands`). The other texts, and the other integers within 64 bits, look like
a boolean that cannot be interpreted (`Boolean.Unreadable`), and no other value looks like one.
A text with a surrogate in it is refused before it is compared (`Json.HasSurrogate`). So each value
has one of four outcomes (`Boolean.ofJson_cases`).
-/

namespace JavaLiteral

namespace Binary

variable {F : Format} {x : Binary F} {n : ℤ}

theorem integer?_eq_some : x.integer? = some n ↔ x.isFinite ∧ x.value = n := by
  unfold integer?
  split_ifs with h
  · have hvalue : x.value = x.value.num := (Rat.den_eq_one_iff _).1 h.2 |>.symm
    rw [Option.some_inj]
    constructor
    · rintro rfl
      exact ⟨h.1, hvalue⟩
    · rintro ⟨-, hn⟩
      rw [hn, Rat.num_intCast]
  · refine iff_of_false not_false ?_
    rintro ⟨hfinite, hn⟩
    exact h ⟨hfinite, by rw [hn, Rat.den_intCast]⟩

end Binary

namespace Json

/-- A JSON number denotes the integer that it is equal to. -/
inductive Denotes : Json → ℤ → Prop
  | int (n : ℤ) : Denotes (.int n) n
  | real (x : Double) (n : ℤ) (hfinite : x.isFinite) (h : x.value = n) : Denotes (.real x) n

/-- The numbers that are looked at as integers. A real that is the least value of 64 bits is not. -/
structure Counts (v : Json) (n : ℤ) : Prop where
  denotes : v.Denotes n
  ne_minValue : ∀ x, v = .real x → n ≠ IntType.long.minValue

/-- The texts that are no Unicode. -/
inductive HasSurrogate : Json → Prop
  | text {t : Text} (h : ¬t.IsEncodable) : HasSurrogate (.text t)

end Json

theorem Text.isEncodable_of_lowercase {t : Text} (h : t.lowercase.IsEncodable) : t.IsEncodable := by
  intro c hc
  have hlower : c.lowercase.isSurrogate = false := h _ (List.mem_map_of_mem hc)
  unfold CodePoint.lowercase at hlower
  split at hlower
  · -- The letters A to Z lie far below the surrogates.
    simp only [CodePoint.isSurrogate, Bool.and_eq_false_iff, decide_eq_false_iff_not]
    omega
  · exact hlower

namespace Boolean

/-- The values that stand for a boolean. -/
inductive Stands : Json → Bool → Prop
  | bool (b : Bool) : Stands (.bool b) b
  | zero {v : Json} (h : v.Denotes 0) : Stands v false
  | one {v : Json} (h : v.Denotes 1) : Stands v true
  | falseWord {t : Text} (h : t.lowercase ∈ falseWords) : Stands (.text t) false
  | trueWord {t : Text} (h : t.lowercase ∈ trueWords) : Stands (.text t) true

/-- The values that look like a boolean and stand for none. -/
inductive Unreadable : Json → Prop
  | number {v : Json} {n : ℤ} (h : v.Counts n) (hn : IntType.long.holds n) (h0 : n ≠ 0)
      (h1 : n ≠ 1) : Unreadable v
  | text {t : Text} (h : t.IsEncodable) (hf : t.lowercase ∉ falseWords)
      (ht : t.lowercase ∉ trueWords) : Unreadable (.text t)

section Integers

variable {n : ℤ} {b : Bool}

theorem ofInt_eq_ok : ofInt n = .ok b ↔ n = 0 ∧ b = false ∨ n = 1 ∧ b = true := by
  unfold ofInt
  split_ifs with h0 h1 hn <;> cases b <;> simp <;> omega

theorem ofInt_eq_unreadable :
    ofInt n = .error .unreadableBoolean ↔ IntType.long.holds n ∧ n ≠ 0 ∧ n ≠ 1 := by
  have hhalf : IntType.long.half = 0x8000000000000000 := rfl
  rw [IntType.holds_iff, hhalf]
  unfold ofInt
  split_ifs <;> simp <;> omega

theorem ofInt_of_lt (h : n < IntType.long.minValue) : ofInt n = .error .notBoolean := by
  simp only [IntType.minValue, IntType.half] at h
  unfold ofInt
  rw [if_neg (by omega), if_neg (by omega), if_neg (by omega)]

theorem ofInt_cases (n : ℤ) : (∃ b, ofInt n = .ok b) ∨ ofInt n = .error .unreadableBoolean
    ∨ ofInt n = .error .notBoolean := by
  unfold ofInt
  split_ifs <;> simp

end Integers

section Words

variable {t : Text} {b : Bool}

theorem ofJson_text (h : t.IsEncodable) : ofJson (.text t)
    = if t.lowercase ∈ falseWords then .ok false
      else if t.lowercase ∈ trueWords then .ok true
      else .error .unreadableBoolean :=
  if_pos h

theorem isEncodable_of_mem (h : t.lowercase ∈ falseWords ++ trueWords) : t.IsEncodable := by
  have hwords : ∀ w ∈ falseWords ++ trueWords, w.IsEncodable := by decide
  exact Text.isEncodable_of_lowercase (hwords _ h)

end Words

variable {v : Json} {n : ℤ} {b : Bool}

theorem ofJson_of_counts (h : v.Counts n) : ofJson v = ofInt n := by
  obtain ⟨hdenotes, hne⟩ := h
  cases hdenotes with
  | int => rfl
  | real x _ hfinite hvalue =>
    rw [ofJson, Binary.integer?_eq_some.2 ⟨hfinite, hvalue⟩]
    dsimp only
    split_ifs with hbound
    · rfl
    · refine (ofInt_of_lt (lt_of_le_of_ne ?_ (hne x rfl))).symm
      exact not_lt.1 hbound

theorem ofJson_cases_of_counts (h : v.Counts n) : (∃ b, Stands v b ∧ ofJson v = .ok b)
    ∨ (Unreadable v ∧ ofJson v = .error .unreadableBoolean) ∨ ofJson v = .error .notBoolean := by
  rw [ofJson_of_counts h]
  rcases ofInt_cases n with ⟨b, hb⟩ | hb | hb
  · refine .inl ⟨b, ?_, hb⟩
    rcases ofInt_eq_ok.1 hb with ⟨rfl, rfl⟩ | ⟨rfl, rfl⟩
    · exact .zero h.denotes
    · exact .one h.denotes
  · obtain ⟨hholds, h0, h1⟩ := ofInt_eq_unreadable.1 hb
    exact .inr (.inl ⟨.number h hholds h0 h1, hb⟩)
  · exact .inr (.inr hb)

/-- What is made of a value, by what it is. -/
theorem ofJson_cases (v : Json) : (∃ b, Stands v b ∧ ofJson v = .ok b)
    ∨ (Unreadable v ∧ ofJson v = .error .unreadableBoolean) ∨ ofJson v = .error .notBoolean
    ∨ (v.HasSurrogate ∧ ofJson v = .error .notUnicode) := by
  cases v with
  | bool b => exact .inl ⟨b, .bool b, rfl⟩
  | int n => exact (ofJson_cases_of_counts ⟨.int n, nofun⟩).imp_right (Or.imp_right .inl)
  | real x =>
    cases hx : x.integer? with
    | none => exact .inr (.inr (.inl (by rw [ofJson, hx])))
    | some n =>
      by_cases hmin : n = IntType.long.minValue
      · exact .inr (.inr (.inl (by rw [ofJson, hx, hmin]; rfl)))
      · obtain ⟨hfinite, hvalue⟩ := Binary.integer?_eq_some.1 hx
        exact (ofJson_cases_of_counts ⟨.real x n hfinite hvalue, fun _ _ => hmin⟩).imp_right
          (Or.imp_right .inl)
  | text t =>
    by_cases h : t.IsEncodable
    · rw [ofJson_text h]
      split_ifs with hfalse htrue
      · exact .inl ⟨false, .falseWord hfalse, rfl⟩
      · exact .inl ⟨true, .trueWord htrue, rfl⟩
      · exact .inr (.inl ⟨.text h hfalse htrue, rfl⟩)
    · exact .inr (.inr (.inr ⟨.text h, if_neg h⟩))
  | null => exact .inr (.inr (.inl rfl))
  | list values => exact .inr (.inr (.inl rfl))
  | object fields => exact .inr (.inr (.inl rfl))

theorem ofJson_eq_ok : ofJson v = .ok b ↔ Stands v b := by
  constructor
  · intro h
    rcases ofJson_cases v with ⟨c, hc, heq⟩ | ⟨-, heq⟩ | heq | ⟨-, heq⟩ <;> rw [heq] at h
    · obtain rfl := Except.ok.inj h
      exact hc
    all_goals cases h
  · intro h
    cases h with
    | bool => rfl
    | zero h => rw [ofJson_of_counts ⟨h, fun _ _ => by decide⟩]; rfl
    | one h => rw [ofJson_of_counts ⟨h, fun _ _ => by decide⟩]; rfl
    | falseWord h =>
      rw [ofJson_text (isEncodable_of_mem (List.mem_append_left _ h)), if_pos h]
    | @trueWord t h =>
      have hdisjoint : ∀ w ∈ trueWords, w ∉ falseWords := by decide
      rw [ofJson_text (isEncodable_of_mem (List.mem_append_right _ h)), if_neg (hdisjoint _ h),
        if_pos h]

theorem ofJson_eq_unreadable : ofJson v = .error .unreadableBoolean ↔ Unreadable v := by
  constructor
  · intro h
    rcases ofJson_cases v with ⟨c, -, heq⟩ | ⟨hv, -⟩ | heq | ⟨-, heq⟩
    · exact nomatch heq.symm.trans h
    · exact hv
    · exact nomatch heq.symm.trans h
    · exact nomatch heq.symm.trans h
  · intro h
    cases h with
    | number h hholds h0 h1 =>
      rw [ofJson_of_counts h]
      exact ofInt_eq_unreadable.2 ⟨hholds, h0, h1⟩
    | text h hf ht => rw [ofJson_text h, if_neg hf, if_neg ht]

theorem ofJson_eq_notUnicode : ofJson v = .error .notUnicode ↔ v.HasSurrogate := by
  constructor
  · intro h
    rcases ofJson_cases v with ⟨c, -, heq⟩ | ⟨-, heq⟩ | heq | ⟨hv, -⟩
    · exact nomatch heq.symm.trans h
    · exact nomatch heq.symm.trans h
    · exact nomatch heq.symm.trans h
    · exact hv
  · rintro ⟨h⟩
    exact if_neg h

theorem ofJson_eq_notBoolean : ofJson v = .error .notBoolean
    ↔ (∀ b, ¬Stands v b) ∧ ¬Unreadable v ∧ ¬v.HasSurrogate := by
  rw [← ofJson_eq_unreadable, ← ofJson_eq_notUnicode]
  simp only [← ofJson_eq_ok]
  rcases ofJson_cases v with ⟨b, -, h⟩ | ⟨-, h⟩ | h | ⟨-, h⟩ <;> simp [h]

end Boolean

end JavaLiteral
