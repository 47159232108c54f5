import JavaLiteral.Proofs.RequestLiteral

/-!
# Requests for integers and the ranges of their types

What Java reads as an integer expression has a value in the range of its static type
(`holds_of_evaluate?`), and so no expression at all initialises a variable with a value that is out
of the range of the variable (`holds_of_initial?`).

Validation holds the value of an integer kind to the range of a `long`, whichever kind it is. A
request that passed therefore has a literal, but the literal initialises a variable of the kind with
the value of the request exactly if the type of the kind holds that value (`initialises_iff_holds`).
-/

namespace JavaLiteral

open IntType

namespace Source

variable {e : IntegerExpression} {t : IntType} {v : ℤ} {x : Typed} {w : Text}

theorem holds_of_evaluate?_literal {l : IntegerLiteral} (h : l.evaluate? = some x) :
    x.type.holds x.value := by
  have hmax : l.type.maxValue = l.type.half - 1 := rfl
  unfold IntegerLiteral.evaluate? at h
  split_ifs at h with hd hle hlt <;> obtain rfl := Option.some.inj h
  · refine holds_iff.2 ?_
    dsimp only
    omega
  · exact holds_wrap _ _

theorem holds_neg (x : Typed) : x.neg.type.holds x.neg.value := holds_wrap _ _

theorem evaluate?_negation (h : (IntegerExpression.negation e).evaluate? = some x) :
    (∃ t : IntType, x = ⟨t, t.minValue⟩) ∨ ∃ y, e.evaluate? = some y ∧ x = y.neg := by
  have hneg : ∀ {o : Option Typed}, o.map Typed.neg = some x → ∃ y, o = some y ∧ x = y.neg := by
    intro o ho
    obtain ⟨y, hy, rfl⟩ := Option.map_eq_some_iff.1 ho
    exact ⟨y, hy, rfl⟩
  cases e with
  | literal l =>
    rw [IntegerExpression.evaluate?] at h
    split_ifs at h
    · exact .inl ⟨l.type, (Option.some.inj h).symm⟩
    · exact .inr (hneg h)
  | constant t v => exact .inr (hneg h)
  | negation e => exact .inr (hneg h)
  | cast t e => exact .inr (hneg h)

theorem holds_of_word?_constant (h : word? w = some (.constant t v)) : t.holds v := by
  have hmax : ∀ t : IntType, t.holds t.maxValue := by
    intro t
    cases t <;> decide
  have hmin : ∀ t : IntType, t.holds t.minValue := by
    intro t
    cases t <;> decide
  unfold word? at h
  split at h
  · obtain ⟨rfl, rfl⟩ := IntegerExpression.constant.inj (Option.some.inj h)
    exact hmax _
  · split at h
    · obtain ⟨rfl, rfl⟩ := IntegerExpression.constant.inj (Option.some.inj h)
      exact hmin _
    · obtain ⟨l, -, hl⟩ := Option.map_eq_some_iff.1 h
      cases hl

theorem holds_of_expression?_constant {ts : List Token}
    (h : expression? ts = some (.constant t v)) : t.holds v := by
  unfold expression? at h
  split at h
  · obtain ⟨e, -, he⟩ := Option.map_eq_some_iff.1 h
    cases he
  · obtain ⟨u, -, h⟩ := Option.bind_eq_some_iff.1 h
    obtain ⟨e, -, he⟩ := Option.map_eq_some_iff.1 h
    cases he
  · exact holds_of_word?_constant h
  · cases h

/-- What Java reads has a value in the range of its type. -/
theorem holds_of_evaluate? (he : integerExpression? w = some e) (hx : e.evaluate? = some x) :
    x.type.holds x.value := by
  cases e with
  | literal l => exact holds_of_evaluate?_literal hx
  | constant t v =>
    obtain ⟨ts, -, hts⟩ := Option.bind_eq_some_iff.1 he
    obtain rfl := Option.some.inj hx
    exact holds_of_expression?_constant hts
  | negation e =>
    rcases evaluate?_negation hx with ⟨t, rfl⟩ | ⟨y, -, rfl⟩
    · cases t <;> decide
    · exact holds_neg y
  | cast t e =>
    obtain ⟨y, -, rfl⟩ := Option.map_eq_some_iff.1 hx
    exact holds_wrap t y.value

/-- A variable is only initialised with values that its type holds. -/
theorem holds_of_initial? (he : integerExpression? w = some e) (h : e.initial? t = some v) :
    t.holds v := by
  obtain ⟨x, hx, hxv⟩ := Option.bind_eq_some_iff.1 h
  unfold Typed.initial? at hxv
  split_ifs at hxv with hle
  obtain rfl := Option.some.inj hxv
  rcases hle with hle | ⟨-, hholds⟩
  · exact holds_mono hle (holds_of_evaluate? he hx)
  · exact hholds

end Source

namespace Request

open Source

theorem exists_integer_of_suits {t : IntType} {o : Operand} (h : Suits (.integer t) o) :
    ∃ n, o = .integer n ∧ long.holds n := by
  cases h with
  | integer _ n hn => exact ⟨n, rfl, hn⟩

theorem render_integer {r : Request} {t : IntType} {n : ℤ} (ht : r.kind = .integer t)
    (ho : r.operand = .integer n) (hn : long.holds n) (s : Session) :
    s.render r = .ok (t.literal s.settings.integerFormat r.cast n) := by
  obtain ⟨k, o, cast⟩ := r
  dsimp only at ht ho
  subst ht ho
  rw [Session.render, literal_integer t hn]
  rfl

/-- A validated request for an integer has a literal, which is an integer expression. A variable of
the type is initialised with the value of the request if and only if the type holds that value. If
Java accepts the literal as the initial value at all, the variable gets the value modulo the size of
its type. -/
theorem initialises_iff_holds {v : Json} {r : Request} {t : IntType} (h : ofJson v = .ok r)
    (ht : r.kind = .integer t) (s : Session) :
    ∃ n literal e, r.operand = .integer n ∧ s.render r = .ok literal
      ∧ integerExpression? literal = some e
      ∧ (e.initial? t = some n ↔ t.holds n)
      ∧ ∀ y, e.initial? t = some y → y ≡ n [ZMOD 2 ^ (8 * t.bytes)] := by
  obtain ⟨n, ho, hn⟩ := exists_integer_of_suits (ht ▸ suits_of_ofJson h)
  have he := integerExpression?_literal t s.settings.integerFormat r.cast n
  refine ⟨n, _, _, ho, render_integer ht ho hn s, he,
    ⟨holds_of_initial? he, fun hholds => initial?_literalExpression _ hholds _⟩, fun y hy => ?_⟩
  obtain ⟨x, hx, hxy⟩ := Option.bind_eq_some_iff.1 hy
  unfold Typed.initial? at hxy
  split_ifs at hxy
  obtain rfl := Option.some.inj hxy
  rw [← two_mul_half]
  exact (literalExpression_modEq _ hn hx).1

/-- A request for a `byte` of a value that no `byte` has. -/
def pastByte : Request := ⟨.integer .byte, .integer 200, false⟩

theorem initialises_iff_holds_pastByte :
    ofJson (.object pastByte.toFields) = .ok pastByte
      ∧ pastByte.kind = .integer .byte
      ∧ ∀ s : Session, ∃ n literal e, pastByte.operand = .integer n
        ∧ s.render pastByte = .ok literal
        ∧ integerExpression? literal = some e
        ∧ (e.initial? .byte = some n ↔ byte.holds n)
        ∧ ∀ y, e.initial? .byte = some y → y ≡ n [ZMOD 2 ^ (8 * byte.bytes)] :=
  ⟨rfl, rfl, initialises_iff_holds (v := .object pastByte.toFields) rfl rfl⟩

/-- The request passes validation, and no literal could initialise a `byte` with its value. The
literal that it gets by default is refused. -/
theorem not_initialises_pastByte :
    ofJson (.object pastByte.toFields) = .ok pastByte
      ∧ (¬∃ literal e, integerExpression? literal = some e ∧ e.initial? .byte = some 200)
      ∧ ∀ p, (Session.mk .standard p).render pastByte = .ok "200"
        ∧ ∀ e, integerExpression? "200" = some e → e.initial? .byte = none := by
  have hrender := render_integer (r := pastByte) (n := 200) rfl rfl (by decide)
  refine ⟨rfl, ?_, fun p => ⟨hrender _, fun e he => ?_⟩⟩
  · rintro ⟨literal, e, he, hinitial⟩
    exact absurd (holds_of_initial? he hinitial) (by decide)
  · have hread := integerExpression?_literal .byte .auto false 200
    rw [show byte.literal .auto false 200 = Text.ofString "200" from rfl, he] at hread
    rw [Option.some.inj hread]
    rfl

end Request

end JavaLiteral
