import JavaLiteral.Proofs.JsonWriting
import JavaLiteral.Proofs.RequestGrammar

/-!
# What is read from JSON

A whole part is counted in 64 bits, so an integer that is read is never too large for a `double`,
and whatever validation makes of a line has a literal (`exists_render_of_ofText?`).
-/

namespace JavaLiteral

namespace Json

/-- An integer whose digits have been counted in 64 bits: with a sign it does not pass 2 to the
63rd. -/
def IsCounted (n : ℤ) : Prop := -2 ^ 63 ≤ n ∧ n < 2 ^ 64

theorem appendDigit?_le {negative : Bool} {n m : ℕ} {c : CodePoint}
    (h : appendDigit? negative n c = some m) : m ≤ greatestCount negative := by
  have hmod := Nat.mod_lt (10 * n + Numeral.valueOf [c]) (show 0 < 0x10000000000000000 by decide)
  unfold appendDigit? at h
  unfold greatestCount
  dsimp only at h
  split_ifs at h ⊢ <;> obtain rfl := Option.some.inj h <;> omega

theorem whole?_le {negative : Bool} {digits : Text} {n : ℕ} (h : whole? negative digits = some n) :
    n ≤ greatestCount negative := by
  have hrun : ∀ (ds : Text) (m : ℕ), m ≤ greatestCount negative →
      ds.foldlM (appendDigit? negative) m = some n → n ≤ greatestCount negative := by
    intro ds
    induction ds with
    | nil =>
      intro m hm h
      obtain rfl := Option.some.inj h
      exact hm
    | cons d ds ih =>
      intro m _ h
      rw [List.foldlM_cons] at h
      obtain ⟨m', hm', h⟩ := Option.bind_eq_some_iff.1 h
      exact ih m' (appendDigit?_le hm') h
  exact hrun digits 0 (Nat.zero_le _) h

section Integers

variable {t rest : Text} {n : ℤ} {fuel levels : ℕ}

theorem isCounted_of_readNumber {negative : Bool}
    (h : readNumber negative t = some (.int n, rest)) : IsCounted n := by
  unfold readNumber at h
  dsimp only at h
  obtain ⟨whole, hwhole, h⟩ := Option.bind_eq_some_iff.1 h
  have hle := whole?_le hwhole
  obtain ⟨hv, -⟩ := Prod.mk.inj (Option.some.inj h)
  unfold IsCounted
  unfold greatestCount at hle
  split_ifs at hv hle <;> obtain rfl := Json.int.inj hv <;> omega

theorem isCounted_of_readScalar {c : CodePoint} (h : readScalar c t = some (.int n, rest)) :
    IsCounted n := by
  unfold readScalar at h
  split_ifs at h <;> first
    | exact isCounted_of_readNumber h
    | simp at h

theorem readScalar_ne_object (c : CodePoint) (t rest : Text) (fields : List (Text × Json)) :
    readScalar c t ≠ some (.object fields, rest) := by
  have hnumber : ∀ negative u, readNumber negative u ≠ some (.object fields, rest) := by
    intro negative u h
    unfold readNumber at h
    dsimp only at h
    obtain ⟨whole, -, h⟩ := Option.bind_eq_some_iff.1 h
    obtain ⟨hv, -⟩ := Prod.mk.inj (Option.some.inj h)
    split_ifs at hv
  unfold readScalar
  split_ifs <;> first
    | exact hnumber _ _
    | simp

theorem isCounted_of_readValue (h : readValue fuel levels t = some (.int n, rest)) :
    IsCounted n := by
  cases fuel with
  | zero => rw [readValue] at h; cases h
  | succ fuel =>
    rw [readValue] at h
    split at h
    · cases h
    · split_ifs at h
      · split at h
        · cases h
        · split_ifs at h <;> simp at h
      · split at h
        · cases h
        · split_ifs at h <;> simp at h
      · exact isCounted_of_readScalar h

end Integers

/-- Fields whose integers have been counted. -/
def AreCounted (fields : List (Text × Json)) : Prop :=
  ∀ name n, field? name fields = some (.int n) → IsCounted n

theorem AreCounted.setField {fields : List (Text × Json)} (h : AreCounted fields) {name : Text}
    {v : Json} (hv : ∀ n, v = .int n → IsCounted n) :
    AreCounted (setField name v fields) := by
  intro other n hn
  by_cases hother : other = name
  · rw [hother, field?_setField_self] at hn
    exact hv n (Option.some.inj hn)
  · rw [field?_setField_ne v hother] at hn
    exact h other n hn

theorem areCounted_readFields {fuel levels : ℕ} {fields fields' : List (Text × Json)}
    {t rest : Text} (h : readFields fuel levels fields t = some (fields', rest))
    (hfields : AreCounted fields) : AreCounted fields' := by
  induction fuel generalizing fields t with
  | zero => rw [readFields] at h; cases h
  | succ fuel ih =>
    rw [readFields] at h
    obtain ⟨⟨name, after⟩, -, h⟩ := Option.bind_eq_some_iff.1 h
    obtain ⟨⟨v, after⟩, hv, h⟩ := Option.bind_eq_some_iff.1 h
    have hset : AreCounted (Json.setField name v fields) :=
      hfields.setField (by rintro n rfl; exact isCounted_of_readValue hv)
    dsimp only at h
    split at h
    · cases h
    · split_ifs at h
      · obtain ⟨rfl, -⟩ := Prod.mk.inj (Option.some.inj h)
        exact hset
      · exact ih h hset

theorem areCounted_of_ofText? {t : Text} {fields : List (Text × Json)}
    (h : ofText? t = some (.object fields)) : AreCounted fields := by
  have hnil : AreCounted [] := nofun
  obtain ⟨⟨v, rest⟩, hv, h⟩ := Option.bind_eq_some_iff.1 h
  dsimp only at h
  split_ifs at h
  obtain rfl := Option.some.inj h
  rw [readValue] at hv
  split at hv
  · cases hv
  · split_ifs at hv
    · split at hv
      · cases hv
      · split_ifs at hv <;> simp at hv
    · split at hv
      · cases hv
      · split_ifs at hv
        · obtain ⟨hfields, -⟩ := Prod.mk.inj (Option.some.inj hv)
          rw [← Json.object.inj hfields]
          exact hnil
        · obtain ⟨⟨fields', rest'⟩, hread, hv⟩ := Option.map_eq_some_iff.1 hv
          obtain ⟨hfields, -⟩ := Prod.mk.inj hv
          rw [← Json.object.inj hfields]
          exact areCounted_readFields hread hnil
    · exact absurd hv (readScalar_ne_object _ _ _ _)

end Json

namespace Request

theorem isCounted_of_ofText? {t : Text} {v : Json} {r : Request} {n : ℤ}
    (ht : Json.ofText? t = some v) (h : ofJson v = .ok r) (hn : r.operand = .integer n) :
    Json.IsCounted n := by
  obtain ⟨fields, rfl, hfields, -⟩ := exists_fields_of_ofJson h
  have hvalue := (ofFields_eq_ok.1 hfields).value
  rw [hn] at hvalue
  exact Json.areCounted_of_ofText? ht _ n hvalue

/-- The request of a line has a literal. -/
theorem exists_render_of_ofText? {t : Text} {v : Json} {r : Request} (ht : Json.ofText? t = some v)
    (h : ofJson v = .ok r) (s : Session) : ∃ literal, s.render r = .ok literal := by
  have hsuits := suits_of_ofJson h
  have hcounted := fun n => isCounted_of_ofText? (n := n) ht h
  obtain ⟨k, o, cast⟩ := r
  by_cases hk : ∃ t, k = .real t
  · obtain ⟨t, rfl⟩ := hk
    rcases toDouble_of_suits hsuits with ⟨⟨n, hn, hlarge⟩, -⟩ | ⟨-, x, ho⟩
    · have hle : (2 : ℤ) ^ 64 ≤ 2 ^ 1024 - 2 ^ 970 := by decide +kernel
      have hle := hle.trans hlarge
      have hn := hcounted n hn
      rw [Int.abs_eq_natAbs] at hle
      unfold Json.IsCounted at hn
      omega
    · refine ⟨t.literal x, ?_⟩
      rw [Session.render, literal_real, ho]
      rfl
  · obtain ⟨c, hc⟩ := exists_literal_of_suits hsuits (fun t ht => hk ⟨t, ht⟩) cast s.settings
    refine ⟨c.answer s.isPrintable, ?_⟩
    rw [Session.render, hc]
    rfl

end Request

end JavaLiteral
