import JavaLiteral.Printable

/-!
# Asking whether code points are printable

An escaper is written once, as a computation that asks about code points and goes on with the
answers. A predicate on code points runs it (`Consult.answer`) and also tells what it was asked
(`Consult.asked`), so two predicates that agree on what was asked give one result
(`Consult.answer_congr`).
-/

namespace JavaLiteral

/-- A computation that may ask whether code points are printable. -/
inductive Consult (α : Type) where
  | pure (a : α)
  | ask (c : CodePoint) (next : Bool → Consult α)

namespace Consult

variable {α β : Type}

/-- One computation after another. -/
def bind : Consult α → (α → Consult β) → Consult β
  | pure a, f => f a
  | ask c next, f => ask c fun b => (next b).bind f

instance : Monad Consult where
  pure := pure
  bind := bind

/-- The question whether `c` is printable. -/
def printable (c : CodePoint) : Consult Bool := ask c pure

/-- The result when `p` answers. -/
def answer (p : CodePoint → Bool) : Consult α → α
  | pure a => a
  | ask c next => (next (p c)).answer p

/-- What `p` was asked, in order. -/
def asked (p : CodePoint → Bool) : Consult α → List CodePoint
  | pure _ => []
  | ask c next => c :: (next (p c)).asked p

/-- What is asked and written code point by code point, after `done` in reverse. -/
def flatMapAfter (f : CodePoint → Consult Text) (done : Text) : Text → Consult Text
  | [] => pure done.reverse
  | c :: cs => (f c).bind fun t => flatMapAfter f (t.reverse ++ done) cs

/-- What is asked and written code point by code point. -/
def flatMap (f : CodePoint → Consult Text) (t : Text) : Consult Text := flatMapAfter f [] t

variable (p q : CodePoint → Bool)

@[simp] theorem answer_pure (a : α) : (Pure.pure a : Consult α).answer p = a := rfl

@[simp] theorem asked_pure (a : α) : (Pure.pure a : Consult α).asked p = [] := rfl

@[simp] theorem answer_printable (c : CodePoint) : (printable c).answer p = p c := rfl

@[simp] theorem asked_printable (c : CodePoint) : (printable c).asked p = [c] := rfl

@[simp] theorem answer_bind (x : Consult α) (f : α → Consult β) :
    (x >>= f).answer p = (f (x.answer p)).answer p := by
  change (x.bind f).answer p = _
  induction x with
  | pure a => rfl
  | ask c next ih => simp only [bind, answer, ih]

@[simp] theorem asked_bind (x : Consult α) (f : α → Consult β) :
    (x >>= f).asked p = x.asked p ++ (f (x.answer p)).asked p := by
  change (x.bind f).asked p = _
  induction x with
  | pure a => rfl
  | ask c next ih => simp only [bind, asked, answer, ih, List.cons_append]

@[simp] theorem answer_map (f : α → β) (x : Consult α) : (f <$> x).answer p = f (x.answer p) :=
  answer_bind p x _

@[simp] theorem asked_map (f : α → β) (x : Consult α) : (f <$> x).asked p = x.asked p :=
  (asked_bind p x fun a => Pure.pure (f a)).trans (by simp only [asked_pure, List.append_nil])

theorem answer_flatMapAfter (f : CodePoint → Consult Text) :
    ∀ (t done : Text), (flatMapAfter f done t).answer p
      = done.reverse ++ t.flatMap fun c => (f c).answer p
  | [], done => by simp [flatMapAfter, answer]
  | c :: cs, done => by
    have h := answer_bind p (f c) fun t => flatMapAfter f (t.reverse ++ done) cs
    exact h.trans (by simp [answer_flatMapAfter f cs])

theorem asked_flatMapAfter (f : CodePoint → Consult Text) :
    ∀ (t done : Text), (flatMapAfter f done t).asked p = t.flatMap fun c => (f c).asked p
  | [], done => rfl
  | c :: cs, done => by
    have h := asked_bind p (f c) fun t => flatMapAfter f (t.reverse ++ done) cs
    exact h.trans (by simp [asked_flatMapAfter f cs])

@[simp] theorem answer_flatMap (f : CodePoint → Consult Text) (t : Text) :
    (flatMap f t).answer p = t.flatMap fun c => (f c).answer p := by
  simp [flatMap, answer_flatMapAfter]

@[simp] theorem asked_flatMap (f : CodePoint → Consult Text) (t : Text) :
    (flatMap f t).asked p = t.flatMap fun c => (f c).asked p :=
  asked_flatMapAfter p f t []

/-- A result depends on a predicate only where it is asked. -/
theorem answer_congr : ∀ (x : Consult α), (∀ c ∈ x.asked p, p c = q c) →
    x.answer p = x.answer q ∧ x.asked p = x.asked q
  | pure _, _ => ⟨rfl, rfl⟩
  | ask c next, h => by
    have hc : p c = q c := h c (by simp [asked])
    have ih := answer_congr (next (p c)) fun d hd => h d (by simp [asked, hd])
    simp only [answer, asked, ← hc, ih.1, ih.2, and_self]

end Consult

end JavaLiteral
