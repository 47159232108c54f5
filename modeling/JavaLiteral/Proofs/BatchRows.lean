import JavaLiteral.CommandLine.Command
import JavaLiteral.Proofs.JsonRoundTrip
import JavaLiteral.Proofs.LineSplitting

/-!
# The rows of a batch

A batch without a bad line has a row for every line that is not blank
(`Batch.render_of_forall_not_isBad`), and one with a bad line stops at the first of them, under its
number among all lines (`Batch.render_of_isBad`). Rows are written on a line each
(`Batch.exists_rowLines`), unless a value among them cannot be written at all
(`Batch.exists_rowLines_eq_error`).
-/

namespace JavaLiteral

namespace Batch

/-- A line asks for a request if it is JSON and validation lets its value pass. -/
def Asks (l : Text) (r : Request) : Prop :=
  ∃ v, Json.ofText? l.trim = some v ∧ Request.ofJson v = .ok r

/-- A line that is not blank is bad if it asks for nothing. -/
def IsBad (l : Text) : Prop := l.trim ≠ [] ∧ ∀ r, ¬Asks l r

/-- The lines that are not blank. -/
def filled (ls : List Text) : List Text := ls.filter fun l => l.trim ≠ []

/-- The row of a line: the request that the line asks for, and the literal of the request. -/
structure IsRow (s : Session) (l : Text) (row : Row) : Prop where
  asks : Asks l row.request
  render_eq : s.render row.request = .ok row.literal

theorem Asks.unique {l : Text} {r r' : Request} (h : Asks l r) (h' : Asks l r') : r = r' := by
  obtain ⟨v, hv, hr⟩ := h
  obtain ⟨v', hv', hr'⟩ := h'
  obtain rfl := Option.some.inj (hv.symm.trans hv')
  exact Except.ok.inj (hr.symm.trans hr')

/-- What asks for a request is not blank. -/
theorem Asks.trim_ne_nil {l : Text} {r : Request} (h : Asks l r) : l.trim ≠ [] := by
  obtain ⟨v, hv, -⟩ := h
  intro hnil
  rw [hnil] at hv
  cases hv

section Steps

variable {s : Session} {l : Text} {r : Request}

theorem requestOf_eq_ok_iff : requestOf l.trim = .ok r ↔ Asks l r := by
  unfold requestOf Asks
  cases hv : Json.ofText? l.trim with
  | none => simp
  | some v =>
    dsimp only
    cases hr : Request.ofJson v with
    | ok r' => simp [hr]
    | error vs => cases vs <;> simp [hr]

theorem exists_isRow (h : Asks l r) (s : Session) : ∃ row, IsRow s l row := by
  obtain ⟨v, hv, hr⟩ := id h
  obtain ⟨literal, hliteral⟩ := Request.exists_render_of_ofText? hv hr s
  exact ⟨⟨r, literal⟩, h, hliteral⟩

/-- A line that asks for a request gives its row. -/
theorem rowOf_of_isRow {row : Row} (h : IsRow s l row) (n : ℕ) : rowOf s ⟨n, l.trim⟩ = .ok row := by
  obtain ⟨r, literal⟩ := row
  have hliteral := h.render_eq
  unfold rowOf
  dsimp only at hliteral ⊢
  rw [requestOf_eq_ok_iff.2 h.asks]
  dsimp only
  unfold Session.render at hliteral
  cases hr : r.literal s.settings with
  | error e => rw [hr] at hliteral; cases hliteral
  | ok c =>
    rw [hr] at hliteral
    obtain rfl := Except.ok.inj hliteral
    rfl

/-- A bad line stops a batch under its number. -/
theorem exists_rowOf_of_isBad (h : IsBad l) (s : Session) (n : ℕ) :
    ∃ f, requestOf l.trim = .error f ∧ rowOf s ⟨n, l.trim⟩ = .error (.line n f) := by
  cases hr : requestOf l.trim with
  | ok r => exact absurd (requestOf_eq_ok_iff.1 hr) (h.2 r)
  | error f =>
    refine ⟨f, rfl, ?_⟩
    unfold rowOf
    dsimp only
    rw [hr]

end Steps

/-- The lines that are not blank, without the blanks around them, when the first line of all has a
number. -/
def numbered (n : ℕ) (ls : List Text) : List Line :=
  (((ls.map Text.trim).zipIdx n).filter fun l => l.1 ≠ []).map fun l => ⟨l.2, l.1⟩

theorem numbered_cons (n : ℕ) (l : Text) (ls : List Text) :
    numbered n (l :: ls)
      = if l.trim = [] then numbered (n + 1) ls else ⟨n, l.trim⟩ :: numbered (n + 1) ls := by
  unfold numbered
  rw [List.map_cons, List.zipIdx_cons, List.filter_cons]
  split_ifs with h h' h' <;> simp_all

theorem mem_filled {ls : List Text} {l : Text} : l ∈ filled ls ↔ l ∈ ls ∧ l.trim ≠ [] := by
  simp [filled]

theorem filled_cons (l : Text) (ls : List Text) :
    filled (l :: ls) = if l.trim = [] then filled ls else l :: filled ls := by
  unfold filled
  rw [List.filter_cons]
  split_ifs with h h' h' <;> simp_all

section Runs

variable {s : Session} {ls : List Text}

theorem render_cons {l : Line} {row : Row} (h : rowOf s l = .ok row) (ending : Option BatchError)
    (ls : List Line) :
    render s ending (l :: ls)
      = ⟨row :: (render s ending ls).rows, (render s ending ls).error⟩ := by
  rw [render, h]

theorem exists_isRow_of_not_isBad {l : Text} (h : ¬IsBad l) (hl : l.trim ≠ []) (s : Session) :
    ∃ row, IsRow s l row := by
  by_contra hnone
  exact h ⟨hl, fun r hr => hnone (exists_isRow hr s)⟩

/-- Without a bad line a batch comes to its end with a row for each line that is not blank. -/
theorem render_of_forall_not_isBad (h : ∀ l ∈ ls, ¬IsBad l) (s : Session) (n : ℕ) :
    ∃ rows, List.Forall₂ (IsRow s) (filled ls) rows
      ∧ render s none (numbered n ls) = ⟨rows, none⟩ := by
  induction ls generalizing n with
  | nil => exact ⟨[], .nil, rfl⟩
  | cons l ls ih =>
    obtain ⟨rows, hrows, hrender⟩ := ih (fun m hm => h m (List.mem_cons_of_mem _ hm)) (n + 1)
    rw [numbered_cons, filled_cons]
    split_ifs with hl
    · exact ⟨rows, hrows, hrender⟩
    · obtain ⟨row, hrow⟩ := exists_isRow_of_not_isBad (h l List.mem_cons_self) hl s
      refine ⟨row :: rows, .cons hrow hrows, ?_⟩
      rw [render_cons (rowOf_of_isRow hrow n), hrender]

/-- A batch stops at its first bad line, whatever lines come after that. -/
theorem render_of_isBad {l : Text} (h : ∀ m ∈ ls, ¬IsBad m) (hl : IsBad l) (s : Session) (n : ℕ)
    (after : List Text) :
    ∃ rows f, List.Forall₂ (IsRow s) (filled ls) rows ∧ requestOf l.trim = .error f
      ∧ render s none (numbered n (ls ++ l :: after)) = ⟨rows, some (.line (n + ls.length) f)⟩ := by
  -- The number of the first line carries the induction: blank lines have no row but are counted.
  induction ls generalizing n with
  | nil =>
    obtain ⟨f, hf, hrow⟩ := exists_rowOf_of_isBad hl s n
    refine ⟨[], f, .nil, hf, ?_⟩
    rw [List.nil_append, numbered_cons, if_neg hl.1, render, hrow]
    rfl
  | cons m ls ih =>
    obtain ⟨rows, f, hrows, hf, hrender⟩ :=
      ih (fun m' hm' => h m' (List.mem_cons_of_mem _ hm')) (n + 1)
    have hnumber : n + (m :: ls).length = n + 1 + ls.length := by
      rw [List.length_cons]
      omega
    rw [List.cons_append, numbered_cons, filled_cons, hnumber]
    split_ifs with hm
    · exact ⟨rows, f, hrows, hf, hrender⟩
    · obtain ⟨row, hrow⟩ := exists_isRow_of_not_isBad (h m List.mem_cons_self) hm s
      refine ⟨row :: rows, f, .cons hrow hrows, hf, ?_⟩
      rw [render_cons (rowOf_of_isRow hrow n), hrender]

end Runs

end Batch

namespace Request

theorem isPlain_real (t : RealType) (x : Double) : Text.IsPlain (t.literal x) := by
  cases t with
  | float => exact Single.isPlain_literal _
  | double => exact x.isPlain_literal

/-- The literal of a request is plain, or it is made of the text that is its value. -/
theorem isPlain_or_isMadeOf {s : Session} {r : Request} {literal : Text}
    (hsuits : Suits r.kind r.operand) (h : s.render r = .ok literal) :
    literal.IsPlain ∨ ∃ t, r.operand = .text t ∧ Text.IsMadeOf t literal := by
  obtain ⟨k, o, cast⟩ := r
  have hreal : ∀ t, k = .real t → literal.IsPlain := by
    rintro t rfl
    rw [Session.render, literal_real] at h
    cases ho : o.toDouble with
    | error e => rw [ho] at h; cases h
    | ok x =>
      rw [ho] at h
      rw [← Except.ok.inj h]
      exact isPlain_real t x
  cases hsuits with
  | string t =>
    rw [← Except.ok.inj h]
    exact .inr ⟨t, rfl, Text.isMadeOf_stringLiteral _ _ t⟩
  | char c hc =>
    rw [Session.render, literal_char hc] at h
    rw [← Except.ok.inj h, Consult.answer_map]
    exact .inr ⟨[c], rfl, c.isMadeOf_charForm _ _ _⟩
  | identifier t =>
    rw [← Except.ok.inj h]
    exact .inr ⟨t, rfl, Text.isMadeOf_identifier t⟩
  | markup m t =>
    rw [← Except.ok.inj h]
    exact .inr ⟨t, rfl, Text.isMadeOf_escapedMarkup m t⟩
  | integer t n hn =>
    rw [Session.render, literal_integer t hn] at h
    rw [← Except.ok.inj h]
    exact .inl (t.isPlain_literal _ _ n)
  | named t _ _ => exact .inl (hreal t rfl)
  | whole t _ => exact .inl (hreal t rfl)
  | real t _ => exact .inl (hreal t rfl)

end Request

namespace Batch

/-- The line that is written for a line of the file: the JSON of the row of that line, which is read
back as the row. -/
def Emits (s : Session) (l t : Text) : Prop :=
  ∃ row v, IsRow s l row ∧ row.toText = .ok t ∧ row.request.operand.IsReadBackAs v
    ∧ Json.ofText? t
      = some (.object (Row.fieldsOf row.request.kind.name row.literal v row.request.cast))

/-- A line whose request has a value that can be written. -/
def IsWritable (l : Text) : Prop := ∀ r, Asks l r → r.operand.IsWritable

section Lines

variable {s : Session} {l : Text} {ls : List Text} {row : Row} {rows : List Row}

theorem isEncodable_literal (h : IsRow s l row) (ho : row.request.operand.IsWritable) :
    row.literal.IsEncodable := by
  obtain ⟨v, -, hr⟩ := h.asks
  rcases Request.isPlain_or_isMadeOf (Request.suits_of_ofJson hr) h.render_eq with
    hplain | ⟨t, ht, hmade⟩
  · exact hplain.isEncodable
  · rw [ht] at ho
    exact hmade.isEncodable ho

theorem exists_emits (h : IsRow s l row) (ho : row.request.operand.IsWritable) :
    ∃ t, row.toText = .ok t ∧ Emits s l t ∧ Text.IsLine t := by
  obtain ⟨t, ht, hplain⟩ := Row.exists_toText_of_isWritable ho (isEncodable_literal h ho)
  obtain ⟨v, hv, hr⟩ := id h.asks
  obtain ⟨u, hback, hread⟩ := Row.exists_ofText?_toText ht fun n hn =>
    Request.isCounted_of_ofText? hv hr hn
  refine ⟨t, ht, ⟨row, u, h, ht, hback, hread⟩, fun c hc => ?_⟩
  · have hval := (hplain c hc).1
    unfold Text.isLineEnd
    simp only [CodePoint.ext_iff, Bool.or_eq_false_iff, decide_eq_false_iff_not,
      CodePoint.val_ofChar]
    constructor
    · exact fun h => absurd h (by change c.val ≠ 10; omega)
    · exact fun h => absurd h (by change c.val ≠ 13; omega)

theorem rowLines_cons {t : Text} (h : row.toText = .ok t) (rows : List Row) :
    CommandLine.Command.rowLines (row :: rows)
      = (CommandLine.Command.rowLines rows).map fun u => CommandLine.Command.line t ++ u := by
  unfold CommandLine.Command.rowLines
  rw [List.mapM_cons, h]
  cases rows.mapM fun r : Row => r.toText.map CommandLine.Command.line <;> rfl

theorem rowLines_cons_error {e : Json.Unwritable} (h : row.toText = .error e) (rows : List Row) :
    CommandLine.Command.rowLines (row :: rows) = .error e := by
  unfold CommandLine.Command.rowLines
  rw [List.mapM_cons, h]
  rfl

/-- The rows of lines whose values can be written are written on a line each. -/
theorem exists_rowLines (h : List.Forall₂ (IsRow s) ls rows) (hls : ∀ l ∈ ls, IsWritable l) :
    ∃ ts, List.Forall₂ (Emits s) ls ts ∧ (∀ t ∈ ts, Text.IsLine t)
      ∧ CommandLine.Command.rowLines rows = .ok (ts.flatMap CommandLine.Command.line) := by
  induction h with
  | nil => exact ⟨[], .nil, by simp, rfl⟩
  | @cons l row ls rows hrow hrows ih =>
    obtain ⟨ts, hemits, hlines, hts⟩ := ih fun m hm => hls m (List.mem_cons_of_mem _ hm)
    obtain ⟨t, ht, hemit, hline⟩ := exists_emits hrow (hls l List.mem_cons_self _ hrow.asks)
    refine ⟨t :: ts, .cons hemit hemits, List.forall_mem_cons.2 ⟨hline, hlines⟩, ?_⟩
    rw [rowLines_cons ht, hts]
    rfl

/-- A row with a value that cannot be written keeps all rows from being written. -/
theorem exists_rowLines_eq_error (h : List.Forall₂ (IsRow s) ls rows) {l : Text} (hl : l ∈ ls)
    (hwritable : ¬IsWritable l) : ∃ e, CommandLine.Command.rowLines rows = .error e := by
  induction h with
  | nil => cases hl
  | @cons m row ls rows hrow hrows ih =>
    cases ht : row.toText with
    | error e => exact ⟨e, rowLines_cons_error ht rows⟩
    | ok t =>
      rw [rowLines_cons ht]
      rcases List.mem_cons.1 hl with rfl | hl
      · refine absurd (fun r hr => ?_) hwritable
        rw [hr.unique hrow.asks]
        by_contra ho
        obtain ⟨e, he⟩ := Row.exists_toText_eq_error ho
        rw [he] at ht
        cases ht
      · -- This row can be written, but the rows are only written together.
        obtain ⟨e, he⟩ := ih hl
        exact ⟨e, by rw [he]; rfl⟩

end Lines

end Batch

end JavaLiteral
