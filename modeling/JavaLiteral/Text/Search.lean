import JavaLiteral.Text

/-!
# Occurrences of a text in a text

A text is cut at the first occurrence of another (`cut?`), and the rest is cut again, which
gives the pieces between the occurrences, taken from the left and not overlapping. The pieces
with the occurrences between them are the text again (`join_pieces`), so counting and removing
read off the pieces.
-/

namespace JavaLiteral.Text

/-- What stands before and after the first occurrence of `sub`. -/
def cut? (sub : Text) : Text → Option (Text × Text)
  | [] => if sub = [] then some ([], []) else none
  | c :: cs =>
    if sub.isPrefixOf (c :: cs) then some ([], (c :: cs).drop sub.length)
    else (cut? sub cs).map fun r => (c :: r.1, r.2)

theorem eq_of_cut? {sub : Text} :
    ∀ {t p r : Text}, cut? sub t = some (p, r) → t = p ++ sub ++ r
  | [], p, r, h => by
    simp only [cut?] at h
    split at h <;> simp_all
  | c :: cs, p, r, h => by
    simp only [cut?] at h
    split at h
    · next hp =>
      obtain ⟨q, hq⟩ := List.isPrefixOf_iff_prefix.1 hp
      simp only [← hq, List.drop_left, Option.some.injEq, Prod.mk.injEq] at h
      simp [← h.1, ← h.2, ← hq]
    · obtain ⟨⟨p', r'⟩, hc, he⟩ := Option.map_eq_some_iff.1 h
      simp only [Prod.mk.injEq] at he
      obtain ⟨rfl, rfl⟩ := he
      simp [eq_of_cut? hc]

theorem length_lt_of_cut? {sub t p r : Text} (h : cut? sub t = some (p, r)) (hs : sub ≠ []) :
    r.length < t.length := by
  have := List.length_pos_iff.2 hs
  simp only [eq_of_cut? h, List.length_append]
  omega

/-- The pieces of a text between the occurrences of `sub`. The empty text does not cut. -/
def pieces (sub t : Text) : List Text :=
  match _h : cut? sub t with
  | none => [t]
  | some (p, r) => if _hs : sub = [] then [t] else p :: pieces sub r
termination_by t.length
decreasing_by exact length_lt_of_cut? (by assumption) (by assumption)

theorem pieces_ne_nil (sub t : Text) : pieces sub t ≠ [] := by
  unfold pieces
  repeat' split
  all_goals simp

theorem join_pieces (sub t : Text) : join sub (pieces sub t) = t := by
  fun_induction pieces sub t with
  | case1 t h => simp [join]
  | case2 t p r h => simp [join]
  | case3 t p r h hs ih =>
    obtain ⟨q, qs, hq⟩ := List.exists_cons_of_ne_nil (pieces_ne_nil sub r)
    rw [hq] at ih ⊢
    simp only [join, List.intersperse_cons_cons, List.flatten_cons] at ih ⊢
    rw [ih, eq_of_cut? h, List.append_assoc]

/-- How often `sub` occurs without overlap; an absent text has no occurrences. -/
def count (sub t : Text) : Nat := (pieces sub t).length - 1

/-- Whether `sub` occurs. -/
def contains (sub t : Text) : Bool := (cut? sub t).isSome

/-- The text without the occurrences of `sub`. -/
def remove (sub t : Text) : Text := (pieces sub t).flatten

/-- The text before the first occurrence of `sub`. -/
def before? (sub t : Text) : Option Text := (cut? sub t).map Prod.fst

/-- The text without `suffix` at its end. -/
def dropSuffix (suffix t : Text) : Text :=
  if suffix.isSuffixOf t then t.take (t.length - suffix.length) else t

end JavaLiteral.Text
