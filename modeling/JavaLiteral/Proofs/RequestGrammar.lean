import JavaLiteral.Proofs.BooleanReading
import JavaLiteral.Proofs.RequestLiteral

/-!
# Which JSON values are requests

A JSON value is a request if it is an object with the three fields of one and the value suits the
kind (`Request.IsRequest`). Validation accepts these values and no others. What it reports of the
others comes from one phase, and each phase is described by what is wrong with the value and not by
the order of the checks (`Request.Reports`): a boolean value, a value that is no object, a field
whose name is no Unicode, all that is wrong with the fields together, or a value that does not suit
the kind (`Request.ofJson_follows_grammar`).
-/

namespace JavaLiteral

namespace Checked

variable {α β : Type} {x : Checked α} {y : Checked β} {us vs : List Violation}

/-- What a check reports: nothing of a value that passes, and else one violation or more. -/
inductive Reports : Checked α → List Violation → Prop
  | ok (a : α) : Reports (.ok a) []
  | error (vs : List Violation) (h : vs ≠ []) : Reports (.error vs) vs

theorem reports_fault (path : List Text) (f : Fault) :
    Reports (fault path f : Checked α) [⟨path, f⟩] :=
  .error _ (List.cons_ne_nil _ _)

theorem Reports.both (hx : Reports x us) (hy : Reports y vs) :
    Reports (Checked.both x y) (us ++ vs) := by
  cases hx with
  | ok a =>
    cases hy with
    | ok b => exact .ok (a, b)
    | error vs h => exact .error vs h
  | error us h =>
    cases hy with
    | ok b => rw [List.append_nil]; exact .error us h
    | error vs h' => exact .error _ (List.append_ne_nil_of_left_ne_nil h vs)

theorem Reports.map (f : α → β) (hx : Reports x us) : Reports (Except.map f x) us := by
  cases hx with
  | ok a => exact .ok (f a)
  | error us h => exact .error us h

theorem Reports.eq_error_iff (hx : Reports x us) : x = .error vs ↔ us = vs ∧ vs ≠ [] := by
  cases hx with
  | ok a =>
    constructor
    · rintro ⟨⟩
    · rintro ⟨rfl, hne⟩
      exact absurd rfl hne
  | error us h =>
    rw [Except.error.injEq]
    constructor
    · rintro rfl
      exact ⟨rfl, h⟩
    · exact And.left

theorem reports_noOthers (names : List Text) (fields : List (Text × Json)) :
    Reports (noOthers names fields)
      ((fields.filter fun f => f.1 ∉ names).map fun f => ⟨[f.1], .unknownField⟩) := by
  unfold noOthers
  split
  · next h => rw [h]; exact .ok ()
  · next others h => exact .error _ (by simpa using h)

variable {name : Text} {names path : List Text} {read : List Text → Json → Checked α}
  {fields : List (Text × Json)} {f : Text × Json} {a d : α}

theorem Reports.record (hx : Reports x us) (hothers : Reports (noOthers names fields) vs)
    (h : ∀ f ∈ fields, f.1.IsEncodable) : Reports (record names x fields) (us ++ vs) := by
  rw [Checked.record, if_pos h]
  exact (hx.both hothers).map _

theorem record_of_not_isEncodable (hf : f ∈ fields) (h : ¬f.1.IsEncodable) :
    record names x fields = fault [] .notUnicode :=
  if_neg fun hall => h (hall f hf)

theorem required_eq_ok : required name read fields = .ok a
    ↔ ∃ v, Json.field? name fields = some v ∧ read [name] v = .ok a := by
  unfold required
  cases Json.field? name fields <;> simp [fault]

theorem optional_eq_ok : optional name d read fields = .ok a
    ↔ (Json.field? name fields = none ∧ a = d)
      ∨ ∃ v, Json.field? name fields = some v ∧ read [name] v = .ok a := by
  unfold optional
  cases Json.field? name fields <;> simp [eq_comm]

section Choice

variable {ofName? : Text → Option α} {nameOf : α → Text} {v : Json}

theorem choice_eq_ok (hname : ∀ t a, ofName? t = some a ↔ nameOf a = t)
    (hencodable : ∀ a, (nameOf a).IsEncodable) :
    choice ofName? names path v = .ok a ↔ v = .text (nameOf a) := by
  constructor
  · intro h
    unfold choice at h
    split at h
    · next t =>
      split_ifs at h
      · rcases ht : ofName? t with _ | b <;> rw [ht] at h
        · cases h
        · obtain rfl := Except.ok.inj h
          rw [(hname t b).1 ht]
      · cases h
    · cases h
  · rintro rfl
    rw [choice, if_pos (hencodable a), (hname _ a).2 rfl]
    rfl

theorem choice_of_hasSurrogate (h : v.HasSurrogate) :
    choice ofName? names path v = fault path .notUnicode := by
  obtain ⟨h⟩ := h
  exact if_neg h

theorem choice_of_forall_ne (hname : ∀ t a, ofName? t = some a ↔ nameOf a = t)
    (h : ∀ a, v ≠ .text (nameOf a)) (hs : ¬v.HasSurrogate) :
    choice ofName? names path v = fault path (.notAChoice names) := by
  unfold choice
  split
  · next t =>
    rw [if_pos (not_not.1 fun ht => hs (.text ht))]
    rcases ht : ofName? t with _ | a
    · rfl
    · exact absurd (congrArg Json.text ((hname t a).1 ht).symm) (h a)
  · rfl

end Choice

end Checked

/-- The names of the values that are not finite, as they are compared. -/
def nonFiniteNames : List Text := ["nan", "inf", "+inf", "-inf"].map Text.ofString

theorem nonFinite?_isSome_iff (t : Text) :
    (nonFinite? t).isSome ↔ t.trim.lowercase ∈ nonFiniteNames := by
  have hmem : t.trim.lowercase ∈ nonFiniteNames ↔ t.trim.lowercase = "nan"
      ∨ (t.trim.lowercase = "inf" ∨ t.trim.lowercase = "+inf") ∨ t.trim.lowercase = "-inf" := by
    simp [nonFiniteNames, or_assoc]
  rw [hmem]
  unfold nonFinite?
  dsimp only
  split_ifs with h1 h2 h3
  · exact iff_of_true rfl (.inl h1)
  · exact iff_of_true rfl (.inr (.inl h2))
  · exact iff_of_true rfl (.inr (.inr h3))
  · exact iff_of_false Bool.false_ne_true (not_or.2 ⟨h1, not_or.2 ⟨h2, h3⟩⟩)

theorem Kind.ofName?_eq_some {t : Text} {k : Kind} : ofName? t = some k ↔ k.name = t := by
  constructor
  · intro h
    rw [ofName?, List.find?_eq_some_iff_append] at h
    exact of_decide_eq_true h.1
  · rintro rfl
    exact k.ofName?_name

theorem Kind.isEncodable_name (k : Kind) : k.name.IsEncodable := by
  have hall : ∀ k ∈ all, k.name.IsEncodable := by decide
  exact hall k k.mem_all

theorem Operand.read_eq_ok {path : List Text} {v : Json} {o : Operand} :
    Operand.read path v = .ok o ↔ v = o.toJson := by
  unfold Operand.read
  cases v <;> cases o <;> simp [Operand.toJson]

namespace Request

variable {fields : List (Text × Json)} {r : Request} {k : Kind} {o : Operand} {why : Refusal}

section Fields

theorem readKind_eq_ok {path : List Text} {v : Json} :
    readKind path v = .ok k ↔ v = .text k.name :=
  Checked.choice_eq_ok (fun _ _ => Kind.ofName?_eq_some) Kind.isEncodable_name

theorem read_cast_eq_ok {path : List Text} {v : Json} {b : Bool} :
    Boolean.read path v = .ok b ↔ Boolean.Stands v b := by
  rw [← Boolean.ofJson_eq_ok, Boolean.read]
  cases Boolean.ofJson v <;> simp [Except.mapError]

/-- The fields of an object that make a request. -/
structure Holds (fields : List (Text × Json)) (r : Request) : Prop where
  kind : Json.field? "kind" fields = some (.text r.kind.name)
  value : Json.field? "value" fields = some r.operand.toJson
  cast : (Json.field? "cast" fields = none ∧ r.cast = false)
    ∨ ∃ v, Json.field? "cast" fields = some v ∧ Boolean.Stands v r.cast
  names : ∀ f ∈ fields, f.1 ∈ [Text.ofString "kind", Text.ofString "value", Text.ofString "cast"]

theorem Holds.isEncodable (h : Holds fields r) : ∀ f ∈ fields, f.1.IsEncodable := by
  have hnames : ∀ name ∈ [Text.ofString "kind", Text.ofString "value", Text.ofString "cast"],
      name.IsEncodable := by decide
  exact fun f hf => hnames _ (h.names f hf)

theorem ofFields_eq_ok : ofFields fields = .ok r ↔ Holds fields r := by
  obtain ⟨k, o, b⟩ := r
  have hmap : ∀ x : Checked (Kind × Operand × Bool),
      (x.map fun r => (⟨r.1, r.2.1, r.2.2⟩ : Request)) = .ok ⟨k, o, b⟩ ↔ x = .ok (k, o, b) := by
    rintro (vs | x) <;> simp [Except.map, Prod.ext_iff]
  have hparts : ofFields fields = .ok ⟨k, o, b⟩
      ↔ ((Checked.required "kind" readKind fields = .ok k
        ∧ Checked.required "value" Operand.read fields = .ok o
        ∧ Checked.optional "cast" false Boolean.read fields = .ok b)
        ∧ ∀ f ∈ fields,
          f.1 ∈ [Text.ofString "kind", Text.ofString "value", Text.ofString "cast"]) := by
    rw [ofFields, hmap, Checked.record_eq_ok (by decide), Checked.both_eq_ok, Checked.both_eq_ok]
  simp only [Checked.required_eq_ok, Checked.optional_eq_ok, readKind_eq_ok, Operand.read_eq_ok,
    read_cast_eq_ok] at hparts
  rw [hparts]
  constructor
  · rintro ⟨⟨⟨_, hk, rfl⟩, ⟨_, ho, rfl⟩, hb⟩, hnames⟩
    exact ⟨hk, ho, hb, hnames⟩
  · rintro ⟨hk, ho, hb, hnames⟩
    exact ⟨⟨⟨_, hk, rfl⟩, ⟨_, ho, rfl⟩, hb⟩, hnames⟩

end Fields

/-- The values that are a request. -/
def IsRequest (v : Json) (r : Request) : Prop :=
  ∃ fields, v = .object fields ∧ Holds fields r ∧ Suits r.kind r.operand

section Suitability

/-- What is wrong with a value for a kind. -/
inductive Unsuits : Kind → Operand → Refusal → Prop
  | notText {k : Kind} {o : Operand} (hi : ∀ t, k ≠ .integer t) (hr : ∀ t, k ≠ .real t)
      (ho : ∀ t, o ≠ .text t) : Unsuits k o (.notText k)
  | notOneCharacter {t : Text} (h : t.length ≠ 1) : Unsuits .char (.text t) .notOneCharacter
  | notOneUnit {c : CodePoint} (h : 0xFFFF < c.val) : Unsuits .char (.text [c]) .notOneUnit
  | notInteger {t : IntType} {o : Operand} (ho : ∀ n, o ≠ .integer n) :
      Unsuits (.integer t) o (.notInteger (.integer t))
  | outOfRange {t : IntType} {n : ℤ} (h : ¬IntType.long.holds n) :
      Unsuits (.integer t) (.integer n) (.outOfRange n)
  | notNumber {t : RealType} {name : Text} (h : name.trim.lowercase ∉ nonFiniteNames) :
      Unsuits (.real t) (.text name) (.notNumber (.real t))

theorem refusal?_eq_none : refusal? k o = none ↔ Suits k o := by
  refine ⟨suits_of_refusal?, fun h => ?_⟩
  cases h with
  | char c h => exact if_pos h
  | integer t n h => exact if_pos h
  | named t name h => exact if_pos h
  | _ => rfl

theorem refusal?_eq_some : refusal? k o = some why ↔ Unsuits k o why := by
  constructor
  · intro h
    unfold refusal? at h
    split at h
    · split_ifs at h with hc
      obtain rfl := Option.some.inj h
      exact .notOneUnit (not_le.1 hc)
    · rename_i t ht
      obtain rfl := Option.some.inj h
      refine .notOneCharacter fun hlength => ?_
      obtain ⟨c, rfl⟩ := List.length_eq_one_iff.1 hlength
      exact ht c rfl
    · cases h
    · cases h
    · cases h
    · split_ifs at h with hn
      obtain rfl := Option.some.inj h
      exact .outOfRange hn
    · rename_i t ho
      obtain rfl := Option.some.inj h
      exact .notInteger ho
    · split_ifs at h with hs
      obtain rfl := Option.some.inj h
      exact .notNumber (mt (nonFinite?_isSome_iff _).2 hs)
    · cases h
    · rename_i hi hr _ hchar hstring hidentifier hmarkup _ _
      obtain rfl := Option.some.inj h
      refine .notText hi hr fun t ht => ?_
      cases k with
      | string => exact hstring t rfl ht
      | char => exact hchar t rfl ht
      | identifier => exact hidentifier t rfl ht
      | markup m => exact hmarkup m t rfl ht
      | integer t' => exact hi t' rfl
      | real t' => exact hr t' rfl
  · intro h
    cases h with
    | notText hi hr ho =>
      cases o with
      | text t => exact absurd rfl (ho t)
      | _ =>
        cases k with
        | integer t => exact absurd rfl (hi t)
        | real t => exact absurd rfl (hr t)
        | _ => rfl
    | @notOneCharacter t h =>
      match t with
      | [] => rfl
      | [c] => exact absurd rfl h
      | c :: d :: t => rfl
    | notOneUnit h => exact if_neg (not_le.2 h)
    | notInteger ho =>
      cases o with
      | integer n => exact absurd rfl (ho n)
      | _ => rfl
    | outOfRange h => exact if_neg h
    | notNumber h => exact if_neg (mt (nonFinite?_isSome_iff _).1 h)

end Suitability

section Faults

/-- What is wrong with the field of a kind. -/
inductive KindFaults : Option Json → List Violation → Prop
  | fine (k : Kind) : KindFaults (some (.text k.name)) []
  | missing : KindFaults none [⟨["kind"], .missing⟩]
  | notUnicode {v : Json} (h : v.HasSurrogate) : KindFaults (some v) [⟨["kind"], .notUnicode⟩]
  | noName {v : Json} (h : ∀ k : Kind, v ≠ .text k.name) (hs : ¬v.HasSurrogate) :
      KindFaults (some v) [⟨["kind"], .notAChoice (Kind.all.map Kind.name)⟩]

/-- What is wrong with the field of a value. -/
inductive ValueFaults : Option Json → List Violation → Prop
  | fine (o : Operand) : ValueFaults (some o.toJson) []
  | missing : ValueFaults none [⟨["value"], .missing⟩]
  | noOperand {v : Json} (h : ∀ o : Operand, v ≠ o.toJson) :
      ValueFaults (some v) [⟨["value", "str"], .notText⟩, ⟨["value", "int"], .notInteger⟩,
        ⟨["value", "float"], .notNumber⟩]

/-- What is wrong with the field that asks for a cast. -/
inductive CastFaults : Option Json → List Violation → Prop
  | absent : CastFaults none []
  | fine {v : Json} {b : Bool} (h : Boolean.Stands v b) : CastFaults (some v) []
  | unreadable {v : Json} (h : Boolean.Unreadable v) :
      CastFaults (some v) [⟨["cast"], .unreadableBoolean⟩]
  | notUnicode {v : Json} (h : v.HasSurrogate) : CastFaults (some v) [⟨["cast"], .notUnicode⟩]
  | noBoolean {v : Json} (hb : ∀ b, ¬Boolean.Stands v b) (hu : ¬Boolean.Unreadable v)
      (hs : ¬v.HasSurrogate) : CastFaults (some v) [⟨["cast"], .notBoolean⟩]

/-- The violations of the fields that no request has. -/
def unknownFields (fields : List (Text × Json)) : List Violation :=
  fields.filterMap fun f : Text × Json =>
    if f.1 ≠ "kind" ∧ f.1 ≠ "value" ∧ f.1 ≠ "cast" then some ⟨[f.1], .unknownField⟩ else none

/-- What is wrong with the fields of an object, those of a request first. -/
inductive FieldFaults (fields : List (Text × Json)) : List Violation → Prop
  | all {us vs ws : List Violation} (hk : KindFaults (Json.field? "kind" fields) us)
      (hv : ValueFaults (Json.field? "value" fields) vs)
      (hc : CastFaults (Json.field? "cast" fields) ws) :
      FieldFaults fields (us ++ vs ++ ws ++ unknownFields fields)

variable {us vs : List Violation}

theorem KindFaults.reports (h : KindFaults (Json.field? "kind" fields) us) :
    (Checked.required "kind" readKind fields).Reports us := by
  unfold Checked.required
  generalize Json.field? "kind" fields = field at h
  cases h with
  | fine k =>
    dsimp only
    rw [readKind_eq_ok.2 rfl]
    exact .ok k
  | missing => exact Checked.reports_fault _ _
  | notUnicode h =>
    dsimp only
    rw [readKind, Checked.choice_of_hasSurrogate h]
    exact Checked.reports_fault _ _
  | noName h hs =>
    dsimp only
    rw [readKind, Checked.choice_of_forall_ne (fun _ _ => Kind.ofName?_eq_some) h hs]
    exact Checked.reports_fault _ _

theorem ValueFaults.reports (h : ValueFaults (Json.field? "value" fields) us) :
    (Checked.required "value" Operand.read fields).Reports us := by
  unfold Checked.required
  generalize Json.field? "value" fields = field at h
  cases h with
  | fine o =>
    dsimp only
    rw [Operand.read_eq_ok.2 rfl]
    exact .ok o
  | missing => exact Checked.reports_fault _ _
  | @noOperand v h =>
    cases v with
    | int n => exact absurd rfl (h (.integer n))
    | real x => exact absurd rfl (h (.real x))
    | text t => exact absurd rfl (h (.text t))
    | _ => exact .error _ (List.cons_ne_nil _ _)

theorem CastFaults.reports (h : CastFaults (Json.field? "cast" fields) us) :
    (Checked.optional "cast" false Boolean.read fields).Reports us := by
  unfold Checked.optional
  generalize Json.field? "cast" fields = field at h
  cases h with
  | absent => exact .ok false
  | fine h =>
    dsimp only
    rw [read_cast_eq_ok.2 h]
    exact .ok _
  | unreadable h =>
    dsimp only
    rw [Boolean.read, Boolean.ofJson_eq_unreadable.2 h]
    exact Checked.reports_fault _ _
  | notUnicode h =>
    dsimp only
    rw [Boolean.read, Boolean.ofJson_eq_notUnicode.2 h]
    exact Checked.reports_fault _ _
  | noBoolean hb hu hs =>
    dsimp only
    rw [Boolean.read, Boolean.ofJson_eq_notBoolean.2 ⟨hb, hu, hs⟩]
    exact Checked.reports_fault _ _

theorem reports_unknownFields (fields : List (Text × Json)) :
    (Checked.noOthers ["kind", "value", "cast"] fields).Reports (unknownFields fields) := by
  have heq : unknownFields fields = (fields.filter fun f =>
      f.1 ∉ [Text.ofString "kind", Text.ofString "value", Text.ofString "cast"]).map fun f =>
        ⟨[f.1], .unknownField⟩ := by
    rw [unknownFields, ← List.filterMap_eq_map', List.filterMap_filter]
    simp
  rw [heq]
  exact Checked.reports_noOthers _ fields

theorem FieldFaults.reports (h : FieldFaults fields us) (hnames : ∀ f ∈ fields, f.1.IsEncodable) :
    (ofFields fields).Reports us := by
  cases h with
  | @all us vs ws hk hv hc =>
    have hparts := hk.reports.both (hv.reports.both hc.reports)
    rw [List.append_assoc us vs ws]
    exact (hparts.record (reports_unknownFields fields) hnames).map _

theorem exists_kindFaults (field : Option Json) : ∃ us, KindFaults field us := by
  cases field with
  | none => exact ⟨_, .missing⟩
  | some v =>
    by_cases h : ∃ k : Kind, v = .text k.name
    · obtain ⟨k, rfl⟩ := h
      exact ⟨_, .fine k⟩
    by_cases hs : v.HasSurrogate
    · exact ⟨_, .notUnicode hs⟩
    · exact ⟨_, .noName (not_exists.1 h) hs⟩

theorem exists_valueFaults (field : Option Json) : ∃ us, ValueFaults field us := by
  cases field with
  | none => exact ⟨_, .missing⟩
  | some v =>
    by_cases h : ∃ o : Operand, v = o.toJson
    · obtain ⟨o, rfl⟩ := h
      exact ⟨_, .fine o⟩
    · exact ⟨_, .noOperand (not_exists.1 h)⟩

theorem exists_castFaults (field : Option Json) : ∃ us, CastFaults field us := by
  cases field with
  | none => exact ⟨_, .absent⟩
  | some v =>
    by_cases hb : ∃ b, Boolean.Stands v b
    · obtain ⟨b, hb⟩ := hb
      exact ⟨_, .fine hb⟩
    by_cases hu : Boolean.Unreadable v
    · exact ⟨_, .unreadable hu⟩
    by_cases hs : v.HasSurrogate
    · exact ⟨_, .notUnicode hs⟩
    · exact ⟨_, .noBoolean (not_exists.1 hb) hu hs⟩

/-- Every object has its list of faults, which is empty if nothing is wrong. -/
theorem exists_fieldFaults (fields : List (Text × Json)) : ∃ us, FieldFaults fields us := by
  obtain ⟨us, hk⟩ := exists_kindFaults (Json.field? "kind" fields)
  obtain ⟨vs, hv⟩ := exists_valueFaults (Json.field? "value" fields)
  obtain ⟨ws, hc⟩ := exists_castFaults (Json.field? "cast" fields)
  exact ⟨_, .all hk hv hc⟩

theorem ofFields_eq_error (hnames : ∀ f ∈ fields, f.1.IsEncodable) :
    ofFields fields = .error vs ↔ FieldFaults fields vs ∧ vs ≠ [] := by
  obtain ⟨us, hus⟩ := exists_fieldFaults fields
  rw [(hus.reports hnames).eq_error_iff]
  constructor
  · rintro ⟨rfl, hne⟩
    exact ⟨hus, hne⟩
  · rintro ⟨hvs, hne⟩
    have herror : ofFields fields = .error vs := (hvs.reports hnames).eq_error_iff.2 ⟨rfl, hne⟩
    exact (hus.reports hnames).eq_error_iff.1 herror

end Faults

/-- The phases of validation. -/
inductive Phase where
  | booleanValue
  | shape
  | names
  | fields
  | suitability
deriving DecidableEq

/-- What is reported of a value, and from which phase. -/
inductive Reports : Json → Phase → List Violation → Prop
  | booleanValue {fields : List (Text × Json)} {b : Bool}
      (h : Json.field? "value" fields = some (.bool b)) :
      Reports (.object fields) .booleanValue [⟨[], .refused "value: bool is not allowed"⟩]
  | shape {v : Json} (h : ∀ fields, v ≠ .object fields) :
      Reports v .shape [⟨[], .notRecord "LiteralRequest"⟩]
  | names {fields : List (Text × Json)} {f : Text × Json}
      (hb : ∀ b, Json.field? "value" fields ≠ some (.bool b)) (hf : f ∈ fields)
      (h : ¬f.1.IsEncodable) : Reports (.object fields) .names [⟨[], .notUnicode⟩]
  | fields {fields : List (Text × Json)} {vs : List Violation}
      (hb : ∀ b, Json.field? "value" fields ≠ some (.bool b))
      (hnames : ∀ f ∈ fields, f.1.IsEncodable) (h : FieldFaults fields vs) (hne : vs ≠ []) :
      Reports (.object fields) .fields vs
  | suitability {fields : List (Text × Json)} {r : Request} {why : Refusal} (h : Holds fields r)
      (hw : Unsuits r.kind r.operand why) :
      Reports (.object fields) .suitability [⟨[], .refused why.message⟩]

section Validation

variable {v : Json} {us vs : List Violation} {p q : Phase}

theorem Holds.value_ne_bool (h : Holds fields r) (b : Bool) :
    Json.field? "value" fields ≠ some (.bool b) := by
  rw [h.value]
  cases r.operand <;> exact fun hb => Json.noConfusion (Option.some.inj hb)

theorem ofJson_object (hb : ∀ b, Json.field? "value" fields ≠ some (.bool b)) :
    ofJson (.object fields) = (ofFields fields).bind fun r =>
      match refusal? r.kind r.operand with
      | none => .ok r
      | some why => refused why := by
  rw [ofJson]
  split
  · next b h => exact absurd h (hb b)
  · rfl

theorem ofJson_of_holds (h : Holds fields r) : ofJson (.object fields)
    = match refusal? r.kind r.operand with
      | none => .ok r
      | some why => refused why := by
  rw [ofJson_object h.value_ne_bool, ofFields_eq_ok.2 h]
  rfl

theorem ofJson_eq_ok : ofJson v = .ok r ↔ IsRequest v r := by
  constructor
  · intro h
    obtain ⟨fields, rfl, hfields, hsuits⟩ := exists_fields_of_ofJson h
    exact ⟨fields, rfl, ofFields_eq_ok.1 hfields, suits_of_refusal? hsuits⟩
  · rintro ⟨fields, rfl, hholds, hsuits⟩
    rw [ofJson_of_holds hholds, refusal?_eq_none.2 hsuits]

theorem Reports.ofJson_eq (h : Reports v p vs) : ofJson v = .error vs := by
  cases h with
  | booleanValue h =>
    rw [ofJson, h]
    rfl
  | shape h =>
    cases v with
    | object fields => exact absurd rfl (h fields)
    | _ => rfl
  | names hb hf h =>
    rw [ofJson_object hb, ofFields, Checked.record_of_not_isEncodable hf h]
    rfl
  | fields hb hnames h hne =>
    rw [ofJson_object hb, (ofFields_eq_error hnames).2 ⟨h, hne⟩]
    rfl
  | suitability h hw =>
    rw [ofJson_of_holds h, refusal?_eq_some.2 hw]
    rfl

theorem exists_reports (h : ofJson v = .error vs) : ∃ p, Reports v p vs := by
  -- Whatever a phase reports is the result, so it is enough to find the phase.
  have hunique {p : Phase} {us : List Violation} (hus : Reports v p us) : Reports v p vs :=
    Except.error.inj (hus.ofJson_eq.symm.trans h) ▸ hus
  by_cases hobject : ∃ fields, v = .object fields
  · obtain ⟨fields, rfl⟩ := hobject
    by_cases hbool : ∃ b, Json.field? "value" fields = some (.bool b)
    · obtain ⟨b, hb⟩ := hbool
      exact ⟨_, hunique (.booleanValue hb)⟩
    by_cases hname : ∃ f ∈ fields, ¬f.1.IsEncodable
    · obtain ⟨f, hf, hname⟩ := hname
      exact ⟨_, hunique (.names (not_exists.1 hbool) hf hname)⟩
    have hnames : ∀ f ∈ fields, f.1.IsEncodable := by simpa using hname
    cases hfields : ofFields fields with
    | error us =>
      obtain ⟨hfaults, hne⟩ := (ofFields_eq_error hnames).1 hfields
      exact ⟨_, hunique (.fields (not_exists.1 hbool) hnames hfaults hne)⟩
    | ok r =>
      have hholds := ofFields_eq_ok.1 hfields
      cases hwhy : refusal? r.kind r.operand with
      | none =>
        rw [ofJson_of_holds hholds, hwhy] at h
        cases h
      | some why => exact ⟨_, hunique (.suitability hholds (refusal?_eq_some.1 hwhy))⟩
  · exact ⟨_, hunique (.shape (not_exists.1 hobject))⟩

theorem Holds.not_fieldFaults (h : Holds fields r) (hne : vs ≠ []) : ¬FieldFaults fields vs := by
  intro hfaults
  have herror := (ofFields_eq_error h.isEncodable).2 ⟨hfaults, hne⟩
  rw [ofFields_eq_ok.2 h] at herror
  cases herror

theorem Reports.phase_unique (hp : Reports v p us) (hq : Reports v q vs) : p = q := by
  cases hp with
  | booleanValue h =>
    cases hq with
    | booleanValue h' => rfl
    | shape h' => exact absurd rfl (h' _)
    | names hb _ _ => exact absurd h (hb _)
    | fields hb _ _ _ => exact absurd h (hb _)
    | suitability h' _ => exact absurd h (h'.value_ne_bool _)
  | shape h =>
    cases hq with
    | shape h' => rfl
    | _ => exact absurd rfl (h _)
  | names hb hf h =>
    cases hq with
    | booleanValue h' => exact absurd h' (hb _)
    | shape h' => exact absurd rfl (h' _)
    | names _ _ _ => rfl
    | fields _ hnames _ _ => exact absurd (hnames _ hf) h
    | suitability h' _ => exact absurd (h'.isEncodable _ hf) h
  | fields hb hnames h hne =>
    cases hq with
    | booleanValue h' => exact absurd h' (hb _)
    | shape h' => exact absurd rfl (h' _)
    | names _ hf h' => exact absurd (hnames _ hf) h'
    | fields _ _ _ _ => rfl
    | suitability h' _ => exact absurd h (h'.not_fieldFaults hne)
  | suitability h _ =>
    cases hq with
    | booleanValue h' => exact absurd h' (h.value_ne_bool _)
    | shape h' => exact absurd rfl (h' _)
    | names _ hf h' => exact absurd (h.isEncodable _ hf) h'
    | fields _ _ h' hne => exact absurd h' (h.not_fieldFaults hne)
    | suitability _ _ => rfl

/-- A request is written as an object that is this request. -/
theorem isRequest_toFields (h : Suits r.kind r.operand) : IsRequest (.object r.toFields) r := by
  refine ⟨_, rfl, ⟨rfl, rfl, .inr ⟨_, rfl, .bool _⟩, ?_⟩, h⟩
  intro f hf
  rw [toFields, List.mem_cons, List.mem_cons, List.mem_singleton] at hf
  rcases hf with rfl | rfl | rfl <;> simp

/-- **Which JSON values are requests.** Validation makes a request of a JSON value exactly if the
value is that request, and of the fields of this request it makes the same one again. Of any other
value it reports what one phase, and no other, finds wrong with it. -/
theorem ofJson_follows_grammar (v : Json) :
    (∀ r, ofJson v = .ok r ↔ IsRequest v r)
    ∧ (∀ r, ofJson v = .ok r → ofJson (.object r.toFields) = .ok r)
    ∧ (∀ vs, ofJson v = .error vs → ∃! p, Reports v p vs)
    ∧ (∀ p vs, Reports v p vs → ofJson v = .error vs)
    ∧ ∀ name, (nonFinite? name).isSome ↔ name.trim.lowercase ∈ nonFiniteNames := by
  refine ⟨fun r => ofJson_eq_ok, fun r h => ?_, fun vs h => ?_, fun p vs h => h.ofJson_eq,
    nonFinite?_isSome_iff⟩
  · exact ofJson_eq_ok.2 (isRequest_toFields (suits_of_ofJson h))
  · obtain ⟨p, hp⟩ := exists_reports h
    exact ⟨p, hp, fun q hq => hq.phase_unique hp⟩

/-- The fields of an object with a surrogate for a name. -/
def surrogateFields : List (Text × Json) := [([⟨0xD800, by decide⟩], .int 1)]

/-- Two fields are missing and one is unknown, but only its name is reported. -/
theorem ofJson_ne_fieldFaults_surrogateFields :
    (∀ b, Json.field? "value" surrogateFields ≠ some (.bool b))
      ∧ FieldFaults surrogateFields [⟨["kind"], .missing⟩, ⟨["value"], .missing⟩,
        ⟨[[⟨0xD800, by decide⟩]], .unknownField⟩]
      ∧ (∀ vs, FieldFaults surrogateFields vs → ofJson (.object surrogateFields) ≠ .error vs)
      ∧ ofJson (.object surrogateFields) = .error [⟨[], .notUnicode⟩] := by
  have hkind : Json.field? "kind" surrogateFields = none := rfl
  have hvalue : Json.field? "value" surrogateFields = none := rfl
  have hfaults : FieldFaults surrogateFields ([⟨["kind"], .missing⟩] ++ [⟨["value"], .missing⟩]
      ++ [] ++ unknownFields surrogateFields) := .all .missing .missing .absent
  have hbool : ∀ b, Json.field? "value" surrogateFields ≠ some (.bool b) := by simp [hvalue]
  have herror : ofJson (.object surrogateFields) = .error [⟨[], .notUnicode⟩] :=
    (Reports.names hbool (List.mem_singleton_self _) (by decide)).ofJson_eq
  refine ⟨hbool, hfaults, fun vs hvs => ?_, herror⟩
  obtain ⟨hk, hv, hc⟩ := hvs
  rw [hkind] at hk
  cases hk
  rw [herror]
  simp

end Validation

end Request

end JavaLiteral
