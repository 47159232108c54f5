import JavaLiteral.Proofs.JsonReals

/-!
# A row is read back

The line of a row is a JSON object with the kind, the value and the cast of its request and with its
literal (`Row.exists_ofText?_toText`). All of them are read as they were given, but for a real, of
which only so many places are written.
-/

namespace JavaLiteral

namespace Json

section Fields

variable {name n value rest : Text} {v : Json}

theorem readName_quoted (h : quoted name = .ok n) (rest : Text) :
    readName (n ++ CodePoint.ofChar ':' :: rest) = some (name, rest) := by
  obtain ⟨ht, rfl⟩ := eq_of_quoted_eq_ok h
  have hexpect : expect (Text.ofString ":") (skipBlanks (CodePoint.ofChar ':' :: rest))
      = some ((), rest) := rfl
  rw [List.cons_append, List.cons_append, readName, skipBlanks_cons (by decide)]
  dsimp only
  rw [if_pos rfl, List.append_assoc, List.singleton_append, readText_flatMap _ ht]
  simp only [Option.bind_eq_bind, Option.bind_some, hexpect]

theorem readFields_field (hname : quoted name = .ok n) (hvalue : IsReadAs value v)
    (fuel levels : ℕ) (fields : List (Text × Json)) {c : CodePoint} (hc : c = ',' ∨ c = '\x7D')
    (rest : Text) :
    readFields (fuel + 2) levels fields (n ++ CodePoint.ofChar ':' :: (value ++ c :: rest))
      = if c = '\x7D' then some (setField name v fields, rest)
        else readFields (fuel + 1) levels (setField name v fields) rest := by
  have hends : EndsNumber (c :: rest) := by
    rcases hc with rfl | rfl <;> exact ⟨_, _, rfl, by decide, by decide, by decide, by decide⟩
  have hblank : isBlank c = false := by rcases hc with rfl | rfl <;> decide
  rw [readFields, readName_quoted hname]
  simp only [Option.bind_eq_bind, Option.bind_some]
  rw [hvalue fuel levels _ hends]
  simp only [Option.bind_some]
  rw [skipBlanks_cons hblank]
  rcases hc with rfl | rfl
  · rw [if_neg (by decide)]
    rfl
  · rfl

end Fields

end Json

/-- What a value is read as that was written in JSON: itself, or some real for a real. -/
def Operand.IsReadBackAs : Operand → Json → Prop
  | text t, v => v = .text t
  | integer n, v => v = .int n
  | real _, v => ∃ y, v = .real y

/-- The text of a value is read back. -/
theorem Operand.exists_isReadAs {o : Operand} {t : Text} (h : o.toJson.toText = .ok t)
    (hint : ∀ n, o = .integer n → Json.IsCounted n) :
    ∃ v, o.IsReadBackAs v ∧ Json.IsReadAs t v := by
  cases o with
  | text u =>
    rw [toJson, Json.toText] at h
    exact ⟨_, rfl, Json.isReadAs_text h⟩
  | integer n =>
    rw [toJson, Json.toText] at h
    rw [← Except.ok.inj h]
    exact ⟨_, rfl, Json.isReadAs_int (hint n rfl)⟩
  | real x =>
    rw [toJson, Json.toText, Json.number] at h
    split_ifs at h
    rw [← Except.ok.inj h]
    obtain ⟨y, hy⟩ := Json.exists_isReadAs_real x
    exact ⟨_, ⟨y, rfl⟩, hy⟩

namespace Row

theorem lineOf_eq (kind value literal : Text) (cast : Bool) :
    lineOf kind value literal cast
      = CodePoint.ofChar '\x7B' :: (Text.ofString "\"kind\"" ++ CodePoint.ofChar ':' :: (kind
        ++ CodePoint.ofChar ',' :: (Text.ofString "\"value\"" ++ CodePoint.ofChar ':' :: (value
        ++ CodePoint.ofChar ',' :: (Text.ofString "\"cast\"" ++ CodePoint.ofChar ':'
        :: (truthText cast
        ++ CodePoint.ofChar ',' :: (Text.ofString "\"literal\"" ++ CodePoint.ofChar ':' :: (literal
        ++ [CodePoint.ofChar '\x7D'])))))))) := by
  unfold lineOf
  simp only [List.append_assoc]
  rfl

/-- The fields of a row. -/
def fieldsOf (kind literal : Text) (v : Json) (cast : Bool) : List (Text × Json) :=
  [("kind", .text kind), ("value", v), ("cast", .bool cast), ("literal", .text literal)]

/-- The texts of the fields are read as the fields, in their order. -/
theorem ofText?_lineOf {kind literal k l value : Text} {v : Json} (cast : Bool)
    (hkind : Json.quoted kind = .ok k) (hvalue : Json.IsReadAs value v)
    (hliteral : Json.quoted literal = .ok l) :
    Json.ofText? (lineOf k value l cast) = some (.object (fieldsOf kind literal v cast)) := by
  have hnames : Json.quoted (Text.ofString "kind") = .ok (Text.ofString "\"kind\"")
      ∧ Json.quoted (Text.ofString "value") = .ok (Text.ofString "\"value\"")
      ∧ Json.quoted (Text.ofString "cast") = .ok (Text.ofString "\"cast\"")
      ∧ Json.quoted (Text.ofString "literal") = .ok (Text.ofString "\"literal\"") :=
    ⟨rfl, rfl, rfl, rfl⟩
  obtain ⟨n1, n2, n3, n4⟩ := hnames
  obtain ⟨fuel, hfuel⟩ : ∃ fuel, (lineOf k value l cast).length = fuel + 5 := by
    refine Nat.exists_eq_add_of_le' ?_
    rw [lineOf_eq, List.length_cons, List.length_append]
    have : (Text.ofString "\"kind\"").length = 6 := rfl
    omega
  obtain ⟨rest, hrest, hfields⟩ : ∃ rest, lineOf k value l cast
      = CodePoint.ofChar '\x7B' :: CodePoint.ofChar '"' :: rest
      ∧ ∀ levels, Json.readFields (fuel + 5) levels [] (CodePoint.ofChar '"' :: rest)
        = some (fieldsOf kind literal v cast, []) := by
    refine ⟨_, lineOf_eq _ _ _ _, fun levels => ?_⟩
    exact (Json.readFields_field n1 (Json.isReadAs_text hkind) (fuel + 3) _ _ (.inl rfl) _).trans
      ((Json.readFields_field n2 hvalue (fuel + 2) _ _ (.inl rfl) _).trans
      ((Json.readFields_field n3 (Json.isReadAs_bool cast) (fuel + 1) _ _ (.inl rfl) _).trans
      (Json.readFields_field n4 (Json.isReadAs_text hliteral) fuel _ _ (.inr rfl) _)))
  rw [Json.ofText?, hfuel, hrest, Json.readValue, Json.skipBlanks_cons (by decide)]
  dsimp only
  rw [if_neg (by decide), if_pos rfl, if_neg (by decide), Json.skipBlanks_cons (by decide)]
  dsimp only
  rw [if_neg (by decide), hfields]
  rfl

/-- The line of a row is read as the fields of its request and its literal. -/
theorem exists_ofText?_toText {row : Row} {t : Text} (h : row.toText = .ok t)
    (hint : ∀ n, row.request.operand = .integer n → Json.IsCounted n) :
    ∃ v, row.request.operand.IsReadBackAs v
      ∧ Json.ofText? t
        = some (.object (fieldsOf row.request.kind.name row.literal v row.request.cast)) := by
  obtain ⟨⟨kind, operand, cast⟩, literal⟩ := row
  dsimp only at hint ⊢
  rw [toText_eq] at h
  dsimp only at h
  cases hkind : Json.quoted kind.name with
  | error e => rw [hkind] at h; cases h
  | ok k =>
    cases hvalue : operand.toJson.toText with
    | error e => rw [hkind, hvalue] at h; cases h
    | ok value =>
      cases hliteral : Json.quoted literal with
      | error e => rw [hkind, hvalue, hliteral] at h; cases h
      | ok l =>
        rw [hkind, hvalue, hliteral] at h
        obtain rfl := Except.ok.inj h
        obtain ⟨v, hback, hread⟩ := Operand.exists_isReadAs hvalue hint
        exact ⟨v, hback, ofText?_lineOf cast hkind hread hliteral⟩

end Row

end JavaLiteral
