import Calculator.Proofs.Command.Batch
import Calculator.Proofs.Json.Words

/-!
# Batches as JSON

A batch prints its entries as one list of records. The reader of JSON takes it back in any case, and
then each record tells the value or the diagnostic of its expression (`Batch.perform_batch_json`).
By the grammar of JSON what is printed is a document exactly if no value is infinite or NaN, since
those are printed as words that the grammar does not have (`Batch.perform_batch_overflow`).
-/

set_option autoImplicit false

namespace Calculator

namespace BatchEntry

variable {settings : Settings} {e : BatchEntry}

/-- The word for the stage that reports a fault. -/
def stageWord : Stage → String
  | .general => "error"
  | .scan => "scan"
  | .parse _ => "parse"
  | .eval _ _ => "eval"

theorem stageWord_eq (stage : Stage) : stageWord stage = stage.name := by
  cases stage <;> rfl

/-- A record tells a diagnostic: the word for its stage, its place and its message. -/
structure TellsFault (d : Diagnostic) (record : Fields) : Prop where
  names : record.names = ["kind", "line", "column", "message"]
  kind : record.get? "kind" = some (.text (stageWord d.stage))
  line : record.get? "line" = some (.int d.position.line)
  column : record.get? "column" = some (.int d.position.column)
  message : record.get? "message" = some (.text d.message)

/-- A record tells an entry: the expression, and either the value and no error or no value and the
diagnostic. -/
structure Tells (e : BatchEntry) (record : Fields) : Prop where
  names : record.names = ["expression", "value", "error"]
  expression : record.get? "expression" = some (.text e.expression)
  value : ∀ value, e.outcome = .ok value →
    record.get? "value" = some value ∧ record.get? "error" = some .null
  fault : ∀ d, e.outcome = .error d → record.get? "value" = some .null ∧
    ∃ error, record.get? "error" = some (.record error) ∧ TellsFault d error

theorem exists_tellsFault (d : Diagnostic) :
    ∃ record, faultDatum d = .record record ∧ TellsFault d record :=
  ⟨_, rfl, rfl, by rw [stageWord_eq]; rfl, rfl, rfl, rfl⟩

/-- **An entry as data tells the entry.** -/
theorem exists_tells (e : BatchEntry) : ∃ record, e.datum = .record record ∧ e.Tells record := by
  obtain ⟨x, outcome⟩ := e
  cases outcome with
  | ok v =>
      refine ⟨_, rfl, rfl, rfl, fun value hvalue => ?_, fun d hfault => (nomatch hfault)⟩
      cases hvalue
      exact ⟨rfl, rfl⟩
  | error d =>
      obtain ⟨error, herror, htells⟩ := exists_tellsFault d
      refine ⟨_, rfl, rfl, rfl, fun value hvalue => (nomatch hvalue), fun d' hfault => ?_⟩
      cases hfault
      exact ⟨rfl, error, congrArg some herror, htells⟩

/-- An entry has a double or a diagnostic. -/
theorem IsAlone.outcome_cases (h : e.IsAlone settings) :
    (∃ x, e.outcome = .ok (.number (.float x))) ∨ ∃ d, e.outcome = .error d := by
  cases houtcome : e.outcome with
  | error d => exact .inr ⟨d, rfl⟩
  | ok v =>
      have hvalue : evaluate Vocabulary.standard.domain settings.depth e.expression.toList =
          .ok v := by
        rw [h, houtcome]
        rfl
      obtain ⟨x, rfl, -⟩ := evaluate_standard_isDouble hvalue
      exact .inl ⟨x, rfl⟩

/-- The doubles in an entry are those of its value. -/
theorem forall_floats_iff (h : e.IsAlone settings) {P : Float → Prop} :
    (∀ x ∈ e.datum.floats, P x) ↔ ∀ x, e.outcome = .ok (.number (.float x)) → P x := by
  rcases h.outcome_cases with ⟨x, houtcome⟩ | ⟨d, houtcome⟩
  · have hfloats : e.datum.floats = [x] := by
      simp [datum, houtcome, Datum.floats, Datum.floatsOfFields]
    rw [hfloats, List.forall_mem_singleton, houtcome]
    refine ⟨fun hx y hy => ?_, fun hall => hall x rfl⟩
    cases hy
    exact hx
  · have hfloats : e.datum.floats = [] := by
      simp [datum, faultDatum, houtcome, Datum.floats, Datum.floatsOfFields, Datum.int]
    rw [hfloats, houtcome]
    exact ⟨fun _ y hy => (by cases hy), fun _ => List.forall_mem_nil _⟩

theorem nodup_names : ["expression", "value", "error"].Nodup := by decide

theorem nodup_faultNames : ["kind", "line", "column", "message"].Nodup := by decide

/-- An entry can be read back, unless its expression is too long for the places in it. -/
theorem legible_datum (h : e.IsAlone settings)
    (hlength : e.expression.length + 1 < Number.leastUnwritable) : Json.Legible e.datum := by
  rcases h.outcome_cases with ⟨x, houtcome⟩ | ⟨d, houtcome⟩
  · simp only [datum, houtcome, Json.Legible, Json.LegibleFields, and_true, true_and]
    exact ⟨nodup_names, fun hfinite => Json.readsBack_of_isFinite hfinite⟩
  · have hfault : evaluateSupply Vocabulary.standard.domain settings.depth
        (.ofText e.expression.toList) = .error (.diagnosed d) := by
      rw [evaluateSupply_ofText, h, houtcome]
      rfl
    -- the place of a fault is in the expression or right behind it
    obtain ⟨hline, hcolumn⟩ := (evaluateSupply_diagnosed hfault).position_le
    simp only [datum, faultDatum, houtcome, Json.Legible, Json.LegibleFields, and_true, true_and,
      Datum.int]
    exact ⟨nodup_names, nodup_faultNames, Nat.lt_of_le_of_lt hline hlength,
      Nat.lt_of_le_of_lt hcolumn hlength⟩

theorem depth_datum_le (h : e.IsAlone settings) : e.datum.depth ≤ 2 := by
  rcases h.outcome_cases with ⟨x, houtcome⟩ | ⟨d, houtcome⟩
  · simp [datum, houtcome, Datum.depth, Datum.depthOfFields]
  · simp [datum, faultDatum, houtcome, Datum.depth, Datum.depthOfFields, Datum.int]

end BatchEntry

namespace Batch

variable {env : Environment} {settings : Settings} {s s' : Session} {entries : List BatchEntry}

theorem floatsOfItems_eq_flatMap (items : List Datum) :
    Datum.floatsOfItems items = items.flatMap Datum.floats := by
  induction items with
  | nil => rfl
  | cons d rest ih => rw [Datum.floatsOfItems, ih, List.flatMap_cons]

theorem legible_datum (h : ∀ e ∈ entries, e.IsAlone settings ∧
    e.expression.length + 1 < Number.leastUnwritable) : Json.Legible (datum entries) := by
  show Json.LegibleItems (entries.map BatchEntry.datum)
  induction entries with
  | nil => trivial
  | cons e rest ih =>
      obtain ⟨⟨halone, hlength⟩, hrest⟩ := List.forall_mem_cons.1 h
      exact ⟨BatchEntry.legible_datum halone hlength, ih hrest⟩

theorem depth_datum_le (h : ∀ e ∈ entries, e.IsAlone settings) : (datum entries).depth ≤ 3 := by
  show Datum.depthOfItems (entries.map BatchEntry.datum) + 1 ≤ 3
  apply Nat.succ_le_succ
  induction entries with
  | nil => exact Nat.zero_le 2
  | cons e rest ih =>
      obtain ⟨halone, hrest⟩ := List.forall_mem_cons.1 h
      exact Nat.max_le.2 ⟨BatchEntry.depth_datum_le halone, ih hrest⟩

/-- What a batch prints as JSON. -/
structure Listed (settings : Settings) (expressions : List String) (entries : List BatchEntry)
    (text : List Char) : Prop where
  /-- There is one entry for each expression, in order. -/
  expressions_eq : entries.map (·.expression) = expressions
  /-- Each has the outcome that its expression has alone. -/
  alone : ∀ e ∈ entries, e.IsAlone settings
  /-- Each has a double or a diagnostic. -/
  outcome_cases : ∀ e ∈ entries,
    (∃ x, e.outcome = .ok (.number (.float x))) ∨ ∃ d, e.outcome = .error d
  /-- The text is a document exactly if all doubles are finite. -/
  document_iff : Json.IsDocument text ↔
    ∀ e ∈ entries, ∀ x, e.outcome = .ok (.number (.float x)) → x.isFinite
  /-- In any case it is read back as a list with a record for each entry, in order, which tells the
  entry. -/
  read_back : (∀ x ∈ expressions, x.length + 1 < Number.leastUnwritable) →
    ∃ records : List Fields, Json.read text = .ok (.list (records.map .record)) ∧
      List.Forall₂ BatchEntry.Tells entries records

/-- Entries as data are a list of records that tell them. -/
theorem exists_records (entries : List BatchEntry) : ∃ records : List Fields,
    datum entries = .list (records.map .record) ∧
      List.Forall₂ BatchEntry.Tells entries records := by
  have hentries : ∃ records : List Fields,
      entries.map BatchEntry.datum = records.map .record ∧
        List.Forall₂ BatchEntry.Tells entries records := by
    induction entries with
    | nil => exact ⟨[], rfl, .nil⟩
    | cons e rest ih =>
        obtain ⟨record, hrecord, htells⟩ := e.exists_tells
        obtain ⟨records, hrecords, hrest⟩ := ih
        refine ⟨record :: records, ?_, .cons htells hrest⟩
        rw [List.map_cons, hrecord, hrecords, List.map_cons]
  obtain ⟨records, hrecords, htells⟩ := hentries
  exact ⟨records, congrArg Datum.list hrecords, htells⟩

/-- The list of entries over several lines has all that is said of what a batch prints. -/
theorem listed_renderIndented {expressions : List String}
    (hexpressions : entries.map (·.expression) = expressions)
    (halone : ∀ e ∈ entries, e.IsAlone settings) :
    Listed settings expressions entries (Json.renderIndented (datum entries) ++ "\n").toList := by
  have hfeed : Json.Blanks ['\n'] := List.forall_mem_singleton.2 rfl
  have htext : (Json.renderIndented (datum entries) ++ "\n").toList =
      Json.manyLines.data 0 (datum entries) ++ ['\n'] := by
    rw [String.toList_append, Json.renderIndented, String.toList_ofList, Json.indentedAt_eq_data]
    rfl
  exact
    { expressions_eq := hexpressions
      alone := halone
      outcome_cases := fun e he => (halone e he).outcome_cases
      document_iff := by
        have hfloats : (datum entries).floats =
            (entries.map BatchEntry.datum).flatMap Datum.floats := floatsOfItems_eq_flatMap _
        rw [htext, Json.isDocument_iff _ _ _ hfeed, hfloats]
        constructor
        · intro hall e he
          refine (BatchEntry.forall_floats_iff (halone e he)).1 fun x hx => hall x ?_
          exact List.mem_flatMap.2 ⟨_, List.mem_map_of_mem he, hx⟩
        · intro hall x hx
          obtain ⟨d, hd, hx⟩ := List.mem_flatMap.1 hx
          obtain ⟨e, he, rfl⟩ := List.mem_map.1 hd
          exact (BatchEntry.forall_floats_iff (halone e he)).2 (hall e he) x hx
      read_back := by
        intro hshort
        have hlegible := legible_datum fun e he =>
          ⟨halone e he, hshort e.expression (hexpressions ▸ List.mem_map_of_mem he)⟩
        have hdepth : (datum entries).depth ≤ Json.deepest :=
          Nat.le_trans (depth_datum_le halone) (by decide)
        obtain ⟨records, hrecords, htells⟩ := exists_records entries
        refine ⟨records, ?_, htells⟩
        rw [htext, Json.read_data hlegible hdepth hfeed, hrecords] }

/-- **A batch prints its entries as JSON**, as far as their values allow. -/
theorem perform_batch_json (env : Environment) (settings : Settings) (s : Session)
    (expressions : List String) :
    ∃ (entries : List BatchEntry) (s' : Session) (text : String),
      (Call.perform env settings (.batch expressions true)).run s =
        (.ok (if failures entries = 0 then 0 else 1), s') ∧
      s'.out = s.out ++ text ∧ Listed settings expressions entries text.toList := by
  obtain ⟨entries, s', hrun, hexpressions, halone, hleads⟩ :=
    run_leads env (.inl rfl : ArePresentable env settings true expressions) s
  exact ⟨entries, s', _, hrun, hleads.output, listed_renderIndented hexpressions halone⟩

set_option maxRecDepth 10000 in
/-- A number that no finite double is close to is infinite. -/
theorem evaluate_overflow : evaluate Vocabulary.standard.domain .standard "1e400".toList =
    .ok (.number (.float (1.0 / 0.0))) := by
  have htranscript : Transcript.ofText "1e400".toList =
      ⟨[⟨⟨⟨.number, "1e400"⟩, ⟨1, 1⟩⟩, Passed.start.passAll "1e400".toList⟩],
        .ok ⟨⟨⟨.endOfInput, ""⟩, ⟨1, 6⟩⟩, Passed.start.passAll "1e400".toList⟩⟩ := by
    show Transcript.ofResults (Cursor.ofText "1e400".toList).results = _
    rw [Cursor.results_of_token rfl (by decide), Cursor.results_of_endOfInput rfl rfl]
    rfl
  rw [evaluate, htranscript]
  rfl

/-- **An infinite value is printed as a word**, so what is printed is no document. -/
theorem perform_batch_overflow :
    ∃ s' : Session,
      (Call.perform bareEnvironment .standard (.batch ["1e400"] true)).run (.start []) =
        (.ok 0, s') ∧
      s'.out = "[\n  \x7b\n    \"expression\": \"1e400\",\n    \"value\": Infinity,\n" ++
        "    \"error\": null\n  \x7d\n]\n" ∧
      ¬ Json.IsDocument s'.out.toList := by
  have hjson : ArePresentable bareEnvironment .standard true ["1e400"] := .inl rfl
  obtain ⟨entries, s', hrun, hexpressions, halone, hleads⟩ :=
    run_leads bareEnvironment hjson (.start [])
  obtain ⟨e, rest, rfl, he, hrest⟩ := List.map_eq_cons_iff.1 hexpressions
  obtain rfl := List.map_eq_nil_iff.1 hrest
  have hinfinite : BatchEntry.IsAlone .standard
      ⟨"1e400", .ok (.number (.float (1.0 / 0.0)))⟩ := evaluate_overflow
  obtain rfl := (halone e List.mem_cons_self).unique hinfinite he
  have hout : s'.out = Json.renderIndented (datum
      [⟨"1e400", .ok (.number (.float (1.0 / 0.0)))⟩]) ++ "\n" := hleads.output
  refine ⟨s', hrun, ?_, fun hdocument => ?_⟩
  · rw [hout]
    decide +kernel
  · rw [hout] at hdocument
    have hfinite := (listed_renderIndented hexpressions halone).document_iff.1 hdocument _
      List.mem_cons_self (1.0 / 0.0) rfl
    cases hfinite

end Batch

end Calculator
