import JavaLiteral.Proofs.CharReading
import JavaLiteral.Proofs.IntegerReading
import JavaLiteral.Proofs.SingleReading
import JavaLiteral.Request

/-!
# A validated request has a literal

What validation lets through is listed once (`Request.Suits`, `suits_of_ofJson`), and every such
pair of a kind and a value has a literal, whatever the settings are and whichever code points are
printable. The only exception is an integer that is too large for a `double` (`render_of_ofJson`).

Where digits are chosen for a value that has none the literal fails, as `Binary.checkedLiteral`
says. Every such value has a constant, so this never comes to pass (`checkedLiteral_eq`).
-/

namespace JavaLiteral

open Source

namespace Binary

variable {F : Format}

theorem ofInt?_eq_none_iff (n : ℤ) :
    (ofInt? n : Option (Binary F)) = none ↔ F.round n.natAbs = F.infinity := by
  have hle := F.round_le n.natAbs
  unfold ofInt?
  dsimp only
  split_ifs with h
  · have : F.round n.natAbs < F.infinity := of_decide_eq_true h
    exact iff_of_false nofun (by omega)
  · have : ¬F.round n.natAbs < F.infinity := mt decide_eq_true h
    exact iff_of_true rfl (by omega)

/-- The literal of a value, unless the value has neither a constant nor a text. -/
def checkedLiteral (s : FloatSyntax F) (c : CodePoint) (text? : Binary F → Option Text)
    (x : Binary F) : Option Text :=
  match x.constantName? with
  | some name => some (s.classPrefix ++ name)
  | none => (text? x).map (· ++ [c])

/-- A value without a constant is finite, so it has a text if the finite values have. -/
theorem checkedLiteral_eq (s : FloatSyntax F) (c : CodePoint) {decimal : ℕ → Decimal}
    {text? : Binary F → Option Text}
    (h : ∀ x : Binary F, x.isFinite → text? x = some (x.finiteText decimal)) (x : Binary F) :
    x.checkedLiteral s c text? = some (x.written s c decimal) := by
  unfold checkedLiteral written
  cases hname : x.constantName? with
  | some name => rfl
  | none =>
    dsimp only
    rw [h x (isFinite_of_constantName hname), Option.map_some]

end Binary

namespace Double

theorem checkedLiteral_eq_literal (x : Double) :
    x.checkedLiteral doubleSyntax (CodePoint.ofChar 'd') text? = some x.literal := by
  rw [literal_eq_written]
  exact Binary.checkedLiteral_eq _ _ (fun y hy => if_pos hy) x

/-- The integers that rounding takes to 2 to the 1024th or beyond: those from the middle between
that power and the greatest `double` on. -/
def IsTooLarge (n : ℤ) : Prop := 2 ^ 1024 - 2 ^ 970 ≤ |n|

theorem ofInt?_eq_none_iff (n : ℤ) : (Binary.ofInt? n : Option Double) = none ↔ IsTooLarge n := by
  have hmiddle : Binary.Format.double.middle (Binary.Format.double.infinity - 1)
      = ((2 ^ 1024 - 2 ^ 970 : ℤ) : ℚ) := by decide +kernel
  rw [Binary.ofInt?_eq_none_iff,
    Binary.Format.round_eq_infinity_iff (Nat.cast_nonneg _), hmiddle,
    Nat.cast_natAbs, Int.cast_le, IsTooLarge]

end Double

namespace Single

theorem checkedLiteral_eq_literal (x : Single) :
    x.checkedLiteral floatSyntax (CodePoint.ofChar 'f') text? = some x.literal := by
  rw [literal_eq_written]
  exact Binary.checkedLiteral_eq _ _ (fun y hy => if_pos hy) x

end Single

namespace RealType

/-- The literal of a floating-point type for a value of type `double`. -/
def literal : RealType → Double → Text
  | float, x => Single.literal (x.convert .single)
  | double, x => x.literal

/-- The literal of a floating-point type, unless digits are asked for a value that has none. -/
def checkedLiteral : RealType → Double → Option Text
  | float, x =>
    (x.convert .single).checkedLiteral floatSyntax (CodePoint.ofChar 'f') Single.text?
  | double, x => x.checkedLiteral doubleSyntax (CodePoint.ofChar 'd') Double.text?

theorem checkedLiteral_eq (t : RealType) (x : Double) :
    t.checkedLiteral x = some (t.literal x) := by
  cases t with
  | float => exact Single.checkedLiteral_eq_literal _
  | double => exact Double.checkedLiteral_eq_literal x

end RealType

namespace Session

/-- The literal that a request asks for, where the session says what is printable. -/
def render (s : Session) (r : Request) : Except RenderError Text :=
  (r.literal s.settings).map (Consult.answer s.isPrintable)

end Session

namespace Request

/-- The pairs of a kind and a value that validation lets through. -/
inductive Suits : Kind → Operand → Prop
  | string (t : Text) : Suits .string (.text t)
  | char (c : CodePoint) (h : c.val ≤ 0xFFFF) : Suits .char (.text [c])
  | identifier (t : Text) : Suits .identifier (.text t)
  | markup (m : Markup) (t : Text) : Suits (.markup m) (.text t)
  | integer (t : IntType) (n : ℤ) (h : IntType.long.holds n) : Suits (.integer t) (.integer n)
  | named (t : RealType) (name : Text) (h : (nonFinite? name).isSome) : Suits (.real t) (.text name)
  | whole (t : RealType) (n : ℤ) : Suits (.real t) (.integer n)
  | real (t : RealType) (x : Double) : Suits (.real t) (.real x)

theorem suits_of_refusal? {k : Kind} {o : Operand} (h : refusal? k o = none) : Suits k o := by
  unfold refusal? at h
  split at h
  · split_ifs at h with hc
    exact .char _ hc
  · cases h
  · exact .string _
  · exact .identifier _
  · exact .markup _ _
  · split_ifs at h with hn
    exact .integer _ _ hn
  · cases h
  · split_ifs at h with hs
    exact .named _ _ hs
  · rename_i t hs
    cases o with
    | text s => exact absurd rfl (hs s)
    | integer n => exact .whole _ n
    | real x => exact .real _ x
  · cases h

/-- Validation reads the fields of an object, and then lets the value pass for the kind. -/
theorem exists_fields_of_ofJson {v : Json} {r : Request} (h : ofJson v = .ok r) :
    ∃ fields, v = .object fields ∧ ofFields fields = .ok r
      ∧ refusal? r.kind r.operand = none := by
  unfold ofJson at h
  split at h
  · split at h
    · cases h
    · rename_i fields _ _
      cases hr : ofFields fields with
      | error vs => rw [hr] at h; cases h
      | ok r' =>
        rw [hr] at h
        dsimp only [bind, Except.bind] at h
        split at h
        · rename_i hnone
          obtain rfl : r' = r := Except.ok.inj h
          exact ⟨fields, rfl, hr, hnone⟩
        · cases h
  · cases h

theorem suits_of_ofJson {v : Json} {r : Request} (h : ofJson v = .ok r) :
    Suits r.kind r.operand := by
  obtain ⟨_, -, -, hnone⟩ := exists_fields_of_ofJson h
  exact suits_of_refusal? hnone

/-- A request whose value is an integer that is too large for its kind. -/
def Overflows (r : Request) : Prop :=
  ∃ t n, r.kind = .real t ∧ r.operand = .integer n ∧ Double.IsTooLarge n

section Suits

variable {t : RealType} {o : Operand}

theorem toDouble_of_suits (h : Suits (.real t) o) :
    ((∃ n, o = .integer n ∧ Double.IsTooLarge n) ∧ o.toDouble = .error .overflow)
      ∨ (¬∃ n, o = .integer n ∧ Double.IsTooLarge n) ∧ ∃ x, o.toDouble = .ok x := by
  cases h with
  | named _ name h =>
    obtain ⟨x, hx⟩ := Option.isSome_iff_exists.1 h
    refine .inr ⟨nofun, x, ?_⟩
    rw [Operand.toDouble, hx]
    rfl
  | whole _ n =>
    cases hn : (Binary.ofInt? n : Option Double) with
    | none =>
      refine .inl ⟨⟨n, rfl, (Double.ofInt?_eq_none_iff n).1 hn⟩, ?_⟩
      rw [Operand.toDouble, hn]
      rfl
    | some x =>
      refine .inr ⟨?_, x, ?_⟩
      · rintro ⟨_, ⟨⟩, hlarge⟩
        rw [(Double.ofInt?_eq_none_iff n).2 hlarge] at hn
        cases hn
      · rw [Operand.toDouble, hn]
        rfl
  | real _ x => exact .inr ⟨nofun, x, rfl⟩

theorem literal_real (t : RealType) (o : Operand) (cast : Bool) (s : Settings) :
    (Request.mk (.real t) o cast).literal s = o.toDouble.map fun x => pure (t.literal x) := by
  unfold literal
  cases t <;> dsimp only <;> cases o.toDouble <;> rfl

theorem literal_char {c : CodePoint} (h : c.val ≤ 0xFFFF) (cast : Bool) (s : Settings) :
    (Request.mk .char (.text [c]) cast).literal s
      = .ok (CharForm.render cast <$> c.charForm s.escapeUnicode) := by
  unfold literal Settings.literal
  dsimp only
  rw [CharArgument.literal, CharArgument.codePoint_eq_ok c (.text c) h]
  rfl

theorem literal_integer (t : IntType) {n : ℤ} (h : IntType.long.holds n) (cast : Bool)
    (s : Settings) :
    (Request.mk (.integer t) (.integer n) cast).literal s
      = .ok (pure (t.literal s.integerFormat cast n)) := by
  unfold literal Settings.literal
  dsimp only
  rw [IntType.literal_width s.integerFormat h]
  rfl

theorem exists_literal_of_suits {k : Kind} (h : Suits k o) (hk : ∀ t, k ≠ .real t) (cast : Bool)
    (s : Settings) : ∃ c, (Request.mk k o cast).literal s = .ok c := by
  cases h with
  | string t => exact ⟨_, rfl⟩
  | char c h => exact ⟨_, literal_char h cast s⟩
  | identifier t => exact ⟨_, rfl⟩
  | markup m t => exact ⟨_, rfl⟩
  | integer t n h => exact ⟨_, literal_integer t h cast s⟩
  | named t _ _ => exact absurd rfl (hk t)
  | whole t _ => exact absurd rfl (hk t)
  | real t _ => exact absurd rfl (hk t)

end Suits

/-- A request that passed validation has a literal, unless its value is an integer that is too large
for its floating-point kind: then, and only then, it overflows. The digits of a floating-point
literal are chosen for finite values only. -/
theorem render_of_ofJson {v : Json} {r : Request} (h : ofJson v = .ok r) (s : Session) :
    (r.Overflows → s.render r = .error .overflow)
    ∧ (¬r.Overflows → ∃ literal, s.render r = .ok literal
      ∧ ∀ t, r.kind = .real t →
        ∃ x, r.operand.toDouble = .ok x ∧ t.checkedLiteral x = some literal) := by
  have hsuits := suits_of_ofJson h
  obtain ⟨k, o, cast⟩ := r
  by_cases hk : ∃ t, k = .real t
  · obtain ⟨t, rfl⟩ := hk
    have hoverflows : (Request.mk (.real t) o cast).Overflows
        ↔ ∃ n, o = .integer n ∧ Double.IsTooLarge n :=
      ⟨fun ⟨_, n, _, hn⟩ => ⟨n, hn⟩, fun ⟨n, hn⟩ => ⟨t, n, rfl, hn⟩⟩
    rw [hoverflows, Session.render, literal_real]
    rcases toDouble_of_suits hsuits with ⟨hlarge, ho⟩ | ⟨hlarge, x, ho⟩
    · rw [ho]
      exact ⟨fun _ => rfl, fun hn => absurd hlarge hn⟩
    · rw [ho]
      refine ⟨fun hn => absurd hn hlarge, fun _ => ⟨t.literal x, rfl, ?_⟩⟩
      rintro _ ⟨⟩
      exact ⟨x, rfl, t.checkedLiteral_eq x⟩
  · have hk' : ∀ t, k ≠ .real t := fun t ht => hk ⟨t, ht⟩
    obtain ⟨c, hc⟩ := exists_literal_of_suits hsuits hk' cast s.settings
    refine ⟨fun ⟨t, _, ht, _⟩ => absurd ht (hk' t), fun _ => ⟨c.answer s.isPrintable, ?_, ?_⟩⟩
    · rw [Session.render, hc]
      rfl
    · exact fun t ht => absurd ht (hk' t)

/-- The greatest integer that does not overflow. It is a finite `double` and no finite `float`. -/
def greatest : Request := ⟨.real .float, .integer (2 ^ 1024 - 2 ^ 970 - 1), false⟩

theorem render_of_ofJson_greatest :
    ofJson (.object greatest.toFields) = .ok greatest
      ∧ ¬greatest.Overflows
      ∧ ∀ s : Session,
        (greatest.Overflows → s.render greatest = .error .overflow)
        ∧ (¬greatest.Overflows → ∃ literal, s.render greatest = .ok literal
          ∧ ∀ t, greatest.kind = .real t →
            ∃ x, greatest.operand.toDouble = .ok x ∧ t.checkedLiteral x = some literal) := by
  have hread : ∀ n : ℤ, ofJson (.object (Request.mk (.real .float) (.integer n) false).toFields)
      = .ok ⟨.real .float, .integer n, false⟩ := fun _ => rfl
  have h : ofJson (.object greatest.toFields) = .ok greatest := hread _
  refine ⟨h, ?_, render_of_ofJson h⟩
  rintro ⟨t, n, -, hn, hlarge⟩
  obtain rfl := Operand.integer.inj hn
  revert hlarge
  unfold Double.IsTooLarge
  decide +kernel

end Request

end JavaLiteral
