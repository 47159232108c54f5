import JavaLiteral.Batch
import JavaLiteral.Proofs.Conversion
import JavaLiteral.Proofs.PlainText

/-!
# Which rows can be written

JSON is written in plain characters, so a row takes a single line. A row cannot be written if its
value is a text with a surrogate in it or a real that is not finite (`Operand.IsWritable`); every
other one can, provided that its literal has no surrogate either
(`Row.exists_toText_of_isWritable`, `Row.exists_toText_eq_error`).
-/

namespace JavaLiteral

open Text

theorem CodePoint.IsPlain.isSurrogate_eq_false {c : CodePoint} (h : c.IsPlain) :
    c.isSurrogate = false := by
  obtain ⟨h1, h2⟩ := h
  simp only [isSurrogate, Bool.and_eq_false_iff, decide_eq_false_iff_not]
  omega

theorem Text.IsPlain.isEncodable {t : Text} (h : t.IsPlain) : t.IsEncodable := fun c hc =>
  (h c hc).isSurrogate_eq_false

theorem Text.IsMadeOf.isEncodable {t u : Text} (h : IsMadeOf t u) (ht : t.IsEncodable) :
    u.IsEncodable := fun c hc => (h c hc).elim CodePoint.IsPlain.isSurrogate_eq_false (ht c)

/-- A value that can be written in JSON. -/
def Operand.IsWritable : Operand → Prop
  | text t => t.IsEncodable
  | integer _ => True
  | real x => x.isFinite

namespace Json

variable {t : Text}

theorem unwritable?_eq_none_iff (t : Text) : unwritable? t = none ↔ t.IsEncodable := by
  unfold unwritable?
  dsimp only
  split
  · next h =>
    rw [List.dropWhile_eq_nil_iff] at h
    exact iff_of_true rfl fun c hc => by simpa using h c hc
  · next c cs h =>
    refine iff_of_false nofun fun ht => ?_
    have hmem : c ∈ t := (List.dropWhile_sublist _).mem (h ▸ List.mem_cons_self)
    have hhead := List.head?_dropWhile_not (fun c : CodePoint => !c.isSurrogate) t
    rw [h] at hhead
    simp [ht c hmem] at hhead

theorem quoted_of_isEncodable (h : t.IsEncodable) :
    quoted t = .ok (CodePoint.ofChar '"' :: t.flatMap escaped ++ [CodePoint.ofChar '"']) := by
  rw [quoted, (unwritable?_eq_none_iff t).2 h]

theorem eq_of_quoted_eq_ok {u : Text} (h : quoted t = .ok u) :
    t.IsEncodable ∧ u = CodePoint.ofChar '"' :: t.flatMap escaped ++ [CodePoint.ofChar '"'] := by
  unfold quoted at h
  split at h
  · cases h
  · next hnone => exact ⟨(unwritable?_eq_none_iff t).1 hnone, (Except.ok.inj h).symm⟩

theorem exists_quoted_eq_error (h : ¬t.IsEncodable) : ∃ e, quoted t = .error e := by
  obtain ⟨e, he⟩ := Option.ne_none_iff_exists'.1 (mt (unwritable?_eq_none_iff t).1 h)
  exact ⟨e, by rw [quoted, he]⟩

theorem isPlain_escaped (c : CodePoint) : Text.IsPlain (escaped c) := by
  have hraw : ¬(c.val < 0x20 ∨ 0x7F < c.val) → Text.IsPlain [c] := fun h =>
    isPlain_cons.2 ⟨⟨by omega, by omega⟩, isPlain_nil⟩
  unfold escaped
  split_ifs with _ _ _ _ _ _ _ h
  all_goals first
    | decide
    | exact isPlain_unicodeEscape c
    | exact hraw h

theorem isPlain_quoted {u : Text} (h : quoted t = .ok u) : u.IsPlain := by
  obtain ⟨-, rfl⟩ := eq_of_quoted_eq_ok h
  refine isPlain_append.2 ⟨isPlain_cons.2 ⟨by decide, ?_⟩, by decide⟩
  exact isPlain_flatMap fun c _ => isPlain_escaped c

theorem isPlain_exponentText (e : ℤ) : Text.IsPlain (exponentText e) :=
  isPlain_append.2 ⟨by split_ifs <;> decide, isPlain_paddedNumeral (by decide) (by decide) 2 _⟩

theorem isPlain_realText (x : Double) : Text.IsPlain (realText x) := by
  refine isPlain_append.2 ⟨by split_ifs <;> decide, ?_⟩
  split_ifs
  · unfold placesText
    dsimp only
    split_ifs
    · decide
    · exact Decimal.isPlain_plain _ _
  · refine isPlain_append.2 ⟨?_, isPlain_exponentText _⟩
    have hdigits : ∀ (d : Decimal), Text.IsPlain (d.digits.map CodePoint.ofChar) := fun d c hc => by
      obtain ⟨e, he, rfl⟩ := List.mem_map.1 hc
      exact d.isPlain_of_mem_digits he
    split_ifs
    · exact hdigits _
    · refine isPlain_append.2 ⟨isPlain_append.2 ⟨fun c hc => ?_, by decide⟩, fun c hc => ?_⟩
      · exact hdigits _ c (List.mem_of_mem_take hc)
      · exact hdigits _ c (List.mem_of_mem_drop hc)

end Json

namespace Operand

theorem exists_toText_of_isWritable {o : Operand} (h : o.IsWritable) :
    ∃ t, o.toJson.toText = .ok t ∧ t.IsPlain := by
  cases o with
  | text t =>
    have hquoted := Json.quoted_of_isEncodable h
    exact ⟨_, hquoted, Json.isPlain_quoted hquoted⟩
  | integer n => exact ⟨_, rfl, isPlain_ofInt n⟩
  | real x =>
    obtain ⟨hnan, hinf⟩ := Binary.isFinite_iff.1 h
    refine ⟨Json.realText x, ?_, Json.isPlain_realText x⟩
    rw [toJson, Json.toText, Json.number, hnan, hinf]
    rfl

theorem exists_toText_eq_error {o : Operand} (h : ¬o.IsWritable) :
    ∃ e, o.toJson.toText = .error e := by
  cases o with
  | text t => exact Json.exists_quoted_eq_error h
  | integer n => exact absurd trivial h
  | real x =>
    rw [toJson, Json.toText, Json.number]
    cases hnan : x.isNaN with
    | true => exact ⟨_, rfl⟩
    | false =>
      cases hinf : x.isInfinite with
      | true => exact ⟨_, rfl⟩
      | false => exact absurd (Binary.isFinite_iff.2 ⟨hnan, hinf⟩) h

end Operand

theorem Kind.isPlain_name (k : Kind) : k.name.IsPlain := by
  have h : ∀ k ∈ Kind.all, k.name.IsPlain := by decide
  exact h k k.mem_all

namespace Row

/-- The text of a boolean. -/
def truthText (b : Bool) : Text := if b then "true" else "false"

/-- The line of a row, from the texts of its kind, its value and its literal. -/
def lineOf (kind value literal : Text) (cast : Bool) : Text :=
  Text.ofString "\x7B\"kind\":" ++ kind ++ Text.ofString ",\"value\":" ++ value
    ++ Text.ofString ",\"cast\":" ++ truthText cast ++ Text.ofString ",\"literal\":" ++ literal
    ++ Text.ofString "\x7D"

theorem toText_bool (b : Bool) : (Json.bool b).toText = .ok (truthText b) := by
  cases b <;> rw [Json.toText] <;> rfl

theorem fieldTexts_cons {name n : Text} (hname : Json.quoted name = .ok n) (v : Json)
    (fields : List (Text × Json)) :
    Json.fieldTexts ((name, v) :: fields) = (do
      let t ← v.toText
      let ts ← Json.fieldTexts fields
      return (n ++ Text.ofString ":" ++ t) :: ts) := by
  rw [Json.fieldTexts, hname]
  rfl

theorem toText_eq (row : Row) :
    row.toText = (do
      let kind ← Json.quoted row.request.kind.name
      let value ← row.request.operand.toJson.toText
      let literal ← Json.quoted row.literal
      return lineOf kind value literal row.request.cast) := by
  have hkind : Json.quoted (Text.ofString "kind") = .ok (Text.ofString "\"kind\"") := rfl
  have hvalue : Json.quoted (Text.ofString "value") = .ok (Text.ofString "\"value\"") := rfl
  have hcast : Json.quoted (Text.ofString "cast") = .ok (Text.ofString "\"cast\"") := rfl
  have hliteral : Json.quoted (Text.ofString "literal") = .ok (Text.ofString "\"literal\"") := rfl
  have htext : ∀ t, (Json.text t).toText = Json.quoted t := fun t => by rw [Json.toText]
  unfold toText Request.toFields
  rw [Json.toText, List.cons_append, List.cons_append, List.cons_append, List.nil_append,
    fieldTexts_cons hkind, fieldTexts_cons hvalue, fieldTexts_cons hcast, fieldTexts_cons hliteral,
    toText_bool, htext, htext, Json.fieldTexts]
  have hkind' : Text.ofString "\x7B\"kind\":"
      = Text.ofString "\x7B" ++ (Text.ofString "\"kind\"" ++ Text.ofString ":") := rfl
  have hvalue' : Text.ofString ",\"value\":"
      = Text.ofString "," ++ (Text.ofString "\"value\"" ++ Text.ofString ":") := rfl
  have hcast' : Text.ofString ",\"cast\":"
      = Text.ofString "," ++ (Text.ofString "\"cast\"" ++ Text.ofString ":") := rfl
  have hliteral' : Text.ofString ",\"literal\":"
      = Text.ofString "," ++ (Text.ofString "\"literal\"" ++ Text.ofString ":") := rfl
  cases Json.quoted row.request.kind.name <;> cases row.request.operand.toJson.toText <;>
    cases Json.quoted row.literal
  case ok.ok.ok =>
    refine congrArg Except.ok ?_
    rw [lineOf, hkind', hvalue', hcast', hliteral']
    simp only [join, List.intersperse, List.flatten_cons, List.flatten_nil, List.append_assoc,
      List.append_nil]
  all_goals rfl

theorem isPlain_truthText (b : Bool) : Text.IsPlain (truthText b) := by cases b <;> decide

/-- A row is written on a single line if its value can be written and its literal has no
surrogate. -/
theorem exists_toText_of_isWritable {row : Row} (ho : row.request.operand.IsWritable)
    (hliteral : row.literal.IsEncodable) : ∃ t, row.toText = .ok t ∧ t.IsPlain := by
  have hkind := Json.quoted_of_isEncodable row.request.kind.isPlain_name.isEncodable
  have hliteral := Json.quoted_of_isEncodable hliteral
  obtain ⟨t, ht, hplain⟩ := row.request.operand.exists_toText_of_isWritable ho
  rw [toText_eq, hkind, hliteral, ht]
  refine ⟨_, rfl, ?_⟩
  unfold lineOf
  simp only [isPlain_append, Json.isPlain_quoted hkind, Json.isPlain_quoted hliteral, hplain,
    isPlain_truthText, and_true]
  decide

theorem exists_toText_eq_error {row : Row} (ho : ¬row.request.operand.IsWritable) :
    ∃ e, row.toText = .error e := by
  have hkind := Json.quoted_of_isEncodable row.request.kind.isPlain_name.isEncodable
  obtain ⟨e, he⟩ := row.request.operand.exists_toText_eq_error ho
  rw [toText_eq, hkind, he]
  exact ⟨e, rfl⟩

end Row

end JavaLiteral
