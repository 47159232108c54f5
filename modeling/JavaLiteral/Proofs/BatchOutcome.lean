import JavaLiteral.Proofs.BatchRows
import JavaLiteral.Proofs.StopMessage
import JavaLiteral.Proofs.Utf8Reading

/-!
# What a batch comes to

A call for a batch ends in one of three ways, whatever its options are (`outcome_cases`). The first
bad line of the file decides over the call, whatever follows it: nothing is written, and the line is
named. Without a bad line there is a line of JSON for every line that is not blank, the same whether
it goes to a file or not; but a value that JSON has no text for makes the whole call fail.
-/

namespace JavaLiteral.CommandLine

open Command

/-- A call for a batch whose input file can be read and whose output file, if it has one, can be
written. -/
structure BatchCall (content : String) (settings : Settings) where
  folder : Folder
  words : List Text
  level : Log.Level
  input : Path
  output : Option Path
  parse_eq : parse words = .ok (level, .batch input output settings)
  read_eq : folder.read input = .ok (Utf8.octets content)
  output_ne : ∀ path ∈ output, path.toText ≠ Text.ofString "-"
  exists_creation : ∀ path ∈ output, ∃ place, folder.creation path = .ok place

namespace BatchCall

variable {content : String} {settings : Settings} (call : BatchCall content settings)

/-- The session in which a batch with these settings runs. -/
def session (settings : Settings) : Session := ⟨settings, CodePoint.isPrintable⟩

/-- What the call comes to. -/
def outcome : Outcome := Command.outcome call.folder call.words

/-- The rows of the call, up to where it stops. -/
def result (content : String) (settings : Settings) : Batch.Result :=
  Batch.render (session settings) none (Batch.numbered 1 (Text.ofString content).lines)

theorem outputFile?_output : outputFile? call.output = call.output := by
  unfold outputFile?
  cases houtput : call.output with
  | none => rfl
  | some path =>
    rw [Option.filter_some, if_pos]
    exact decide_eq_true (call.output_ne path houtput)

/-- Rows are logged for debugging only. -/
theorem logLines_rowEntry {level : Log.Level} (h : level ≠ .debug) (rows : List Row) :
    logLines level (rows.map Batch.rowEntry) = [] := by
  have hrank : ¬level.rank ≤ Log.Level.debug.rank := by
    cases level <;> first | exact absurd rfl h | decide
  unfold logLines Log.shown
  rw [List.filter_eq_nil_iff.2]
  · rfl
  · intro e he
    obtain ⟨row, -, rfl⟩ := List.mem_map.1 he
    simpa [Batch.rowEntry] using hrank

/-- The only file that the call writes is its output file. -/
theorem writing?_ofBatch (r : Batch.Result) :
    ∀ path ∈ writing? (ofBatch call.level call.input call.output r), path ∈ call.output := by
  intro path hpath
  unfold ofBatch at hpath
  rw [call.outputFile?_output] at hpath
  cases herror : r.error with
  | some e =>
    rw [herror] at hpath
    dsimp only at hpath
    cases hstop : stopMessage call.input e <;> rw [hstop] at hpath <;> cases hpath
  | none =>
    rw [herror] at hpath
    dsimp only at hpath
    cases hrows : rowLines r.rows with
    | error e => rwa [hrows] at hpath
    | ok rows =>
      rw [hrows] at hpath
      cases houtput : call.output with
      | none => rw [houtput] at hpath; cases hpath
      | some p => rwa [houtput] at hpath

theorem outcome_eq :
    call.outcome = ofBatch call.level call.input call.output (result content settings) := by
  have hread : Batch.run ⟨settings, CodePoint.isPrintable⟩ (Utf8.octets content)
      = result content settings := by
    unfold Batch.run
    rw [Utf8.read_octets]
    rfl
  have hrun : Command.run call.level (.ok (Utf8.octets content))
      (.batch call.input call.output settings)
        = ofBatch call.level call.input call.output (result content settings) := by
    rw [Command.run, hread]
  unfold outcome Command.outcome
  rw [call.parse_eq]
  dsimp only [readInput, input?]
  rw [call.read_eq, hrun]
  unfold stored
  split
  · rfl
  · next path hpath =>
    -- The output file can be made, so that writing it changes nothing of the outcome.
    obtain ⟨place, hplace⟩ := call.exists_creation path (call.writing?_ofBatch _ path hpath)
    rw [hplace]

/-- What a call comes to that writes rows: they go to the output file, or else to the standard
output. -/
def success (output : Option Path) (rows err : Text) : Outcome :=
  match output with
  | none => .report ⟨0, rows, err, none⟩
  | some path => .report ⟨0, [], err, some (path, rows)⟩

/-- The first bad line is named, after the log entries of the rows before it. -/
theorem outcome_of_isBad {before after : List Text} {l : Text}
    (hlines : (Text.ofString content).lines = before ++ l :: after)
    (hbefore : ∀ m ∈ before, ¬Batch.IsBad m) (hl : Batch.IsBad l) :
    ∃ rows f, List.Forall₂ (Batch.IsRow (session settings)) (Batch.filled before) rows
      ∧ Batch.requestOf l.trim = .error f
      ∧ call.outcome = .report ⟨1, [], shown (logLines call.level (rows.map Batch.rowEntry))
        ++ errorLine call.input (before.length + 1) f, none⟩ := by
  obtain ⟨rows, f, hrows, hf, hrender⟩ :=
    Batch.render_of_isBad hbefore hl (session settings) 1 after
  obtain ⟨t, ht, hshown⟩ := shown_stopMessage call.input (before.length + 1) f
  have hentries : (Batch.Result.mk rows (some (.line (before.length + 1) f))).entries
      = rows.map Batch.rowEntry := List.append_nil _
  refine ⟨rows, f, hrows, hf, ?_⟩
  rw [call.outcome_eq, result, hlines, hrender, Nat.add_comm 1, ofBatch]
  dsimp only
  rw [ht, hentries]
  dsimp only
  rw [shown_append, hshown]

/-- Without a bad line all rows are written if all values can be. -/
theorem exists_outcome_eq_success
    (h : ∀ l ∈ (Text.ofString content).lines, ¬Batch.IsBad l ∧ Batch.IsWritable l) :
    ∃ ts, List.Forall₂ (Batch.Emits (session settings))
        (Batch.filled (Text.ofString content).lines) ts
      ∧ Text.lines (ts.flatMap line) = ts
      ∧ ∀ call : BatchCall content settings, ∃ err,
        call.outcome = success call.output (ts.flatMap line) err := by
  obtain ⟨rows, hrows, hrender⟩ :=
    Batch.render_of_forall_not_isBad (fun l hl => (h l hl).1) (session settings) 1
  obtain ⟨ts, hemits, hlines, hts⟩ :=
    Batch.exists_rowLines hrows fun l hl => (h l (Batch.mem_filled.1 hl).1).2
  refine ⟨ts, hemits, Text.lines_flatMap hlines, fun call => ?_⟩
  rw [call.outcome_eq, result, hrender, ofBatch, call.outputFile?_output]
  dsimp only
  rw [hts]
  cases call.output <;> exact ⟨_, rfl⟩

/-- Without a bad line a value that cannot be written makes the call fail. -/
theorem outcome_of_not_isWritable (h : ∀ l ∈ (Text.ofString content).lines, ¬Batch.IsBad l)
    {l : Text} (hl : l ∈ (Text.ofString content).lines) (hwritable : ¬Batch.IsWritable l) :
    ∃ e, call.outcome = .failure (.unwritable e) call.output := by
  obtain ⟨rows, hrows, hrender⟩ := Batch.render_of_forall_not_isBad h (session settings) 1
  have hfilled : l ∈ Batch.filled (Text.ofString content).lines := by
    obtain ⟨r, hr⟩ := not_forall.1 hwritable
    exact Batch.mem_filled.2 ⟨hl, (Classical.not_imp.1 hr).1.trim_ne_nil⟩
  obtain ⟨e, he⟩ := Batch.exists_rowLines_eq_error hrows hfilled hwritable
  refine ⟨e, ?_⟩
  rw [call.outcome_eq, result, hrender, ofBatch, call.outputFile?_output]
  dsimp only
  rw [he]

/-- The call with a file `in.jsonl` in the working folder and no options. -/
def plainCall (content : String) : BatchCall content .standard where
  folder := ⟨[([Text.ofString "in.jsonl"], Utf8.octets content)]⟩
  words := [Text.ofString "batch", Text.ofString "in.jsonl"]
  level := .warning
  input := ⟨[], [Text.ofString "in.jsonl"]⟩
  output := none
  parse_eq := rfl
  read_eq := rfl
  output_ne := nofun
  exists_creation := nofun

/-- The call with an output file `out.jsonl` beside the input file. -/
def writingCall (content : String) : BatchCall content .standard where
  folder := ⟨[([Text.ofString "in.jsonl"], Utf8.octets content)]⟩
  words := [Text.ofString "batch", Text.ofString "in.jsonl", Text.ofString "--output",
    Text.ofString "out.jsonl"]
  level := .warning
  input := ⟨[], [Text.ofString "in.jsonl"]⟩
  output := some ⟨[], [Text.ofString "out.jsonl"]⟩
  parse_eq := rfl
  read_eq := rfl
  output_ne := by
    rintro _ ⟨⟩
    decide
  exists_creation := by
    rintro _ ⟨⟩
    exact ⟨_, rfl⟩

example (content : String) (rows err : Text) : success (writingCall content).output rows err
    = .report ⟨0, [], err, some (⟨[], [Text.ofString "out.jsonl"]⟩, rows)⟩ :=
  rfl

/-- A line that asks for the literal of a character. -/
def letterLine : Text := "\x7B\"kind\":\"char\",\"value\":\"a\"\x7D"

theorem asks_letterLine : Batch.Asks letterLine ⟨.char, .text "a", false⟩ :=
  Batch.requestOf_eq_ok_iff.1 (by decide +kernel)

/-- A line that asks for the literal of a text that is a lone surrogate. -/
def surrogateLine : Text := "\x7B\"kind\":\"string\",\"value\":\"\\ud800\"\x7D"

theorem asks_surrogateLine :
    Batch.Asks surrogateLine ⟨.string, .text [⟨0xD800, by decide⟩], false⟩ :=
  Batch.requestOf_eq_ok_iff.1 (by decide +kernel)

end BatchCall

end JavaLiteral.CommandLine
