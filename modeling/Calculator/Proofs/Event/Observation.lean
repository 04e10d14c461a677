import Calculator.Proofs.Evaluation.Containment
import Calculator.Proofs.Evaluation.Pointing
import Calculator.Proofs.Event.Working

/-!
# Evaluations in the log

A journal reports what comes out of an evaluation and has no part in it. In the standard vocabulary
a working sink gets exactly one line for each evaluation (`evaluate_observed`): that of the event of
its value (`Event.ofValue`) or of its diagnostic (`Event.ofDiagnostic`). Both have all that their
types require, and both fit into a line: a value is a double, and a position is not farther than the
source is long (`Diagnosed.position_le`).
-/

set_option autoImplicit false

namespace Calculator

/-! ## How far positions are -/

/-- Each character passed leads at most one line or one column further. -/
theorem Passed.passAll_le (p : Passed) (s : List Char) :
    (p.passAll s).lineNumber ≤ p.lineNumber + s.length ∧
      (p.passAll s).column ≤ p.column + s.length := by
  induction s generalizing p with
  | nil => exact ⟨Nat.le_refl _, Nat.le_refl _⟩
  | cons c s ih =>
      obtain ⟨hline, hcolumn⟩ := ih (p.pass c)
      have hstep : (p.pass c).lineNumber ≤ p.lineNumber + 1 ∧
          (p.pass c).column ≤ p.column + 1 := by
        unfold pass
        split
        · exact ⟨Nat.le_refl _, Nat.le_add_left _ _⟩
        · exact ⟨Nat.le_add_right _ _, Nat.le_refl _⟩
      rw [List.length_cons]
      constructor
      · exact Nat.le_trans hline (by omega)
      · exact Nat.le_trans hcolumn (by omega)

namespace Cursor

/-- A cursor of a source is at most as far as the source is long. -/
theorem Reaches.position_le {s : List Char} {c : Cursor} (h : (ofText s).Reaches c) :
    c.passed.position.line.natAbs ≤ s.length + 1 ∧
      c.passed.position.column.natAbs ≤ s.length + 1 := by
  obtain ⟨t, hsplit, hpassed⟩ := h
  obtain ⟨hline, hcolumn⟩ := Passed.start.passAll_le t
  have hlength : t.length ≤ s.length := by
    have := congrArg List.length hsplit
    simp only [ofText, List.length_append] at this
    omega
  rw [hpassed]
  change (Passed.start.passAll t).lineNumber ≤ 1 + t.length at hline
  change (Passed.start.passAll t).column ≤ 1 + t.length at hcolumn
  simp only [Passed.position, ofText, Int.natAbs_natCast]
  omega

theorem reaches_atItem (c : Cursor) : c.Reaches c.atItem :=
  ⟨(read c.ahead).blanks, (read_append c.ahead).symm, rfl⟩

/-- The scan fails where a cursor behind it would stand. -/
theorem exists_reaches_of_scan {c : Cursor} {diag : Diagnostic} (h : c.scan.1 = .error diag) :
    ∃ c', c.Reaches c' ∧ diag.position = c'.passed.position := by
  simp only [scan, report] at h
  split at h
  · cases h
  · cases h
  · cases h
  · rename_i cause before offender hitem
    obtain rfl := Except.error.inj h
    refine ⟨⟨c.atItem.passed.passAll before, offender :: (read c.ahead).rest⟩, ?_, rfl⟩
    apply c.reaches_atItem.trans
    refine ⟨before, ?_, rfl⟩
    -- the characters of the fault are those before the offender and the offender
    have hahead : c.atItem.ahead = (read c.ahead).item.chars ++ (read c.ahead).rest := rfl
    rw [hahead, hitem]
    exact List.append_cons _ _ _ |>.symm

end Cursor

/-- **A diagnostic is not farther in the source than the source is long.** -/
theorem Diagnosed.position_le {V : Type} {d : Domain V} {limit : DepthLimit} {s : Supply}
    {diag : Diagnostic} (h : Diagnosed d limit s diag) :
    diag.position.line.natAbs ≤ s.text.length + 1 ∧
      diag.position.column.natAbs ≤ s.text.length + 1 := by
  have hstands {lexemes site : List Lexeme} {token : Token} {passed : Passed}
      (h : Stands (.ofText s.text) lexemes site token passed) :
      token.position.line.natAbs ≤ s.text.length + 1 ∧
        token.position.column.natAbs ≤ s.text.length + 1 := by
    obtain ⟨ts, c₁, c₂, -, hdel, hscan, hline, -⟩ := h
    obtain ⟨hposition, -⟩ := Cursor.token_of_scan hscan hline
    rw [hposition]
    exact (hdel.reaches.trans c₁.reaches_atItem).position_le
  cases h with
  | scan _ hdel hscan =>
      obtain ⟨c', hreach, hposition⟩ := Cursor.exists_reaches_of_scan hscan
      rw [hposition]
      exact (hdel.reaches.trans hreach).position_le
  | misplaced _ h => exact hstands h
  | step _ _ h => exact hstands h

/-! ## Events that fit into a line -/

namespace Number

/-- A number with more digits than are written is larger than the number of these digits. -/
theorem lt_leastUnwritable {n : Nat} (h : n ≤ mostDigits) : n < leastUnwritable := by
  unfold leastUnwritable
  -- the power is too large to be computed
  generalize mostDigits = m at h ⊢
  exact Nat.lt_of_le_of_lt h (Nat.lt_pow_self (by decide))

theorem isWritable_int_iff {n : Int} : isWritable (.int n) = true ↔ n.natAbs < leastUnwritable := by
  rw [isWritable, decide_eq_true_iff]

end Number

namespace Event

variable {ts message : String} {level : EventLevel} {type : EventType} {context : Fields}
  {code : Option String}

/-- An event of the current version is logged if its context can be, inside two records. -/
theorem isLogged_make (hproper : Datum.IsProper (.record context))
    (hintegers : Datum.areWritableFields context = true)
    (hdepth : Datum.depthOfFields context + 2 ≤ Json.deepest) :
    Sink.IsLogged (make ts level type message context code) := by
  have hversion : Number.isWritable (.int currentVersion) = true :=
    Number.isWritable_int_iff.2 (Number.lt_leastUnwritable (by decide))
  refine ⟨hproper, ?_, ?_⟩
  · have hcode : (Datum.ofText? code).isWritable = true := by
      cases code <;> rfl
    simp only [datum, fields, make, Datum.int, Datum.isWritable, Datum.areWritableFields, hversion,
      hintegers, hcode, Bool.and_self]
  · have hcode : (Datum.ofText? code).depth = 0 := by
      cases code <;> rfl
    have hdatum : (make ts level type message context code).datum.depth =
        Datum.depthOfFields context + 2 := by
      simp only [datum, fields, make, Datum.int, Datum.depth, Datum.depthOfFields, hcode]
      omega
    exact hdatum ▸ hdepth

/-- The event of a value, as it is logged: the label is cut if it is too long. -/
def ofValue (ts label : String) (value : Datum) : Event :=
  .make ts .info .evalCompleted ("Evaluated " ++ Text.quoted label)
    [("source", .text (clipText label)), ("value", value)]

/-- The event of a diagnostic, as it is logged. -/
def ofDiagnostic (ts label : String) (d : Diagnostic) : Event :=
  .make ts .error .evalFailed d.message
    [("source", .text (clipText label)), ("error_kind", .text d.stage.name),
     ("line", .int d.position.line), ("column", .int d.position.column)]
    (some (d.stage.name ++ "_error"))

/-- What is logged of an evaluation: nothing of a failure that no diagnostic reports. -/
def ofOutcome (ts label : String) : Except Trouble Datum → List Event
  | .ok value => [ofValue ts label value]
  | .error (.diagnosed d) => [ofDiagnostic ts label d]
  | .error (.escaped _) => []

theorem clipText_name (s : Stage) : clipText s.name = s.name := by
  cases s with
  | general => exact if_neg (by decide : ¬ longestText < "error".length)
  | scan => exact if_neg (by decide : ¬ longestText < "scan".length)
  | parse token => exact if_neg (by decide : ¬ longestText < "parse".length)
  | eval token reason => exact if_neg (by decide : ¬ longestText < "eval".length)

/-- The event of a double has all that is required, so it is logged at its own level. -/
theorem evaluationEvent_value (ts label : String) (x : Float) :
    ∃ e, evaluationEvent ts label (.ok (double x)) = some e ∧
      e.prepared = ofValue ts label (double x) :=
  ⟨_, rfl, rfl⟩

/-- The event of a diagnostic has all that is required, so it is logged at its own level. -/
theorem evaluationEvent_diagnosed (ts label : String) (d : Diagnostic) :
    ∃ e, evaluationEvent ts label (.error (.diagnosed d)) = some e ∧
      e.prepared = ofDiagnostic ts label d := by
  refine ⟨_, rfl, ?_⟩
  -- the name of the stage could be cut as well, but it is short
  have hprepared : (make ts .error .evalFailed d.message
      [("source", .text label), ("error_kind", .text d.stage.name),
       ("line", .int d.position.line), ("column", .int d.position.column)]
      (some d.stage.errorCode)).prepared =
      make ts .error .evalFailed d.message
        [("source", .text (clipText label)), ("error_kind", .text (clipText d.stage.name)),
         ("line", .int d.position.line), ("column", .int d.position.column)]
        (some (d.stage.name ++ "_error")) := rfl
  rw [hprepared, clipText_name]
  rfl

theorem isLogged_ofValue (ts label : String) (x : Float) :
    Sink.IsLogged (ofValue ts label (double x)) := by
  apply isLogged_make
  · exact ⟨(by decide : ["source", "value"].Nodup), trivial, trivial, trivial⟩
  · rfl
  · exact (by decide : 2 ≤ Json.deepest)

theorem isLogged_ofDiagnostic {d : Diagnostic}
    (hline : d.position.line.natAbs < Number.leastUnwritable)
    (hcolumn : d.position.column.natAbs < Number.leastUnwritable) (ts label : String) :
    Sink.IsLogged (ofDiagnostic ts label d) := by
  apply isLogged_make
  · have hnames : ["source", "error_kind", "line", "column"].Nodup := by decide
    exact ⟨hnames, trivial, trivial, trivial, trivial, trivial⟩
  · simp only [Datum.areWritableFields, Datum.isWritable, Datum.int,
      Number.isWritable_int_iff.2 hline, Number.isWritable_int_iff.2 hcolumn, Bool.and_self]
  · exact (by decide : 2 ≤ Json.deepest)

/-- The outcome of an evaluation in the standard vocabulary has an event, which is logged as it is
said to be, or it is a failure of the source itself. -/
theorem evaluationEvent_standard (ts label : String) (limit : DepthLimit) (source : Supply) :
    let outcome := evaluateSupply Vocabulary.standard.domain limit source
    (∃ e, evaluationEvent ts label outcome = some e ∧ ofOutcome ts label outcome = [e.prepared]) ∨
    ∃ cause, outcome = .error (.escaped cause) ∧ source.failure? = some cause := by
  intro outcome
  cases houtcome : outcome with
  | ok v =>
      obtain ⟨x, rfl, -⟩ := evaluateSupply_standard_isDouble houtcome
      obtain ⟨e, hevent, hprepared⟩ := evaluationEvent_value ts label x
      refine .inl ⟨e, hevent, ?_⟩
      rw [hprepared]
      rfl
  | error trouble =>
      cases trouble with
      | diagnosed d =>
          obtain ⟨e, hevent, hprepared⟩ := evaluationEvent_diagnosed ts label d
          refine .inl ⟨e, hevent, ?_⟩
          rw [hprepared]
          rfl
      | escaped cause => exact .inr ⟨cause, rfl, evaluateSupply_standard_escaped houtcome⟩

/-- What is logged of an evaluation in the standard vocabulary fits into a line. -/
theorem isLogged_ofOutcome (ts label : String) (limit : DepthLimit) {source : Supply}
    (hlength : source.text.length + 1 < Number.leastUnwritable) :
    ∀ e ∈ ofOutcome ts label (evaluateSupply Vocabulary.standard.domain limit source),
      Sink.IsLogged e := by
  intro e he
  cases houtcome : evaluateSupply Vocabulary.standard.domain limit source with
  | ok v =>
      rw [houtcome] at he
      obtain rfl := List.mem_singleton.1 he
      obtain ⟨x, rfl, -⟩ := evaluateSupply_standard_isDouble houtcome
      exact isLogged_ofValue ts label x
  | error trouble =>
      rw [houtcome] at he
      cases trouble with
      | diagnosed d =>
          obtain rfl := List.mem_singleton.1 he
          obtain ⟨hline, hcolumn⟩ := (evaluateSupply_diagnosed houtcome).position_le
          exact isLogged_ofDiagnostic (Nat.lt_of_le_of_lt hline hlength)
            (Nat.lt_of_le_of_lt hcolumn hlength) ts label
      | escaped cause => cases he

end Event

/-! ## Evaluations with a journal -/

namespace Journal

variable {limit : DepthLimit} {source : Supply} {cwd : Location} {now : Rat} {j : Journal}
  {files : Files} {s : Sink} {e : Event}

/-- The event of an evaluation is emitted, and then nothing else happens. -/
theorem evaluate_of_event {d : Domain Datum} {ts label : String}
    (h : evaluationEvent ts label (evaluateSupply d limit source) = some e) :
    j.evaluate d limit ts label cwd now files source =
      (evaluateSupply d limit source, j.emit cwd now files e) := by
  rw [evaluate, h]

/-- Without an event nothing else happens either. -/
theorem evaluate_of_none {d : Domain Datum} {ts label : String}
    (h : evaluationEvent ts label (evaluateSupply d limit source) = none) :
    j.evaluate d limit ts label cwd now files source =
      (evaluateSupply d limit source, j, files) := by
  rw [evaluate, h]

/-- **Logging observes evaluation and never influences it.** In whatever domain, with whatever
journal and files, an evaluation has the same outcome. In the standard vocabulary a working sink
gets exactly one line for each evaluation, that of the event of its value or of its diagnostic. Only
a failure of the source itself is not logged. No source is so long that the number of its characters
cannot be written. -/
theorem evaluate_observed :
    (∀ (d : Domain Datum) (limit : DepthLimit) (source : Supply) (ts label : String)
      (cwd : Location) (now : Rat) (j : Journal) (files : Files),
      (j.evaluate d limit ts label cwd now files source).1 = evaluateSupply d limit source) ∧
    ∀ (limit : DepthLimit) (source : Supply) (ts label : String) (cwd : Location) (now : Rat)
      (j : Journal) (files : Files) (s : Sink),
      j.sink = some s → s.IsWorking files cwd →
      source.text.length + 1 < Number.leastUnwritable →
      ∃ files',
        j.evaluate Vocabulary.standard.domain limit ts label cwd now files source =
          (evaluateSupply Vocabulary.standard.domain limit source, j, files') ∧
        s.Logged files files' cwd
          (Event.ofOutcome ts label (evaluateSupply Vocabulary.standard.domain limit source)) ∧
        ∀ cause, evaluateSupply Vocabulary.standard.domain limit source =
          .error (.escaped cause) → source.failure? = some cause := by
  constructor
  · intro d limit source ts label cwd now j files
    unfold evaluate
    dsimp only
    split
    · rfl
    · rfl
  · intro limit source ts label cwd now j files s hsink hworks hlength
    have hfits := Event.isLogged_ofOutcome ts label limit hlength
    rcases Event.evaluationEvent_standard ts label limit source with
      ⟨e, hevent, hlogged⟩ | ⟨cause, houtcome, hfailure⟩
    · rw [hlogged] at hfits ⊢
      obtain ⟨files', hemit, hlines⟩ :=
        emit_of_isWorking now hsink hworks (hfits _ List.mem_cons_self)
      refine ⟨files', ?_, hlines, ?_⟩
      · rw [evaluate_of_event hevent, hemit]
      · intro cause h
        rw [h] at hevent
        cases hevent
    · refine ⟨files, ?_, ?_, ?_⟩
      · apply evaluate_of_none
        rw [houtcome]
        rfl
      · rw [houtcome]
        exact Sink.Logged.refl hworks
      · intro cause' h
        rw [houtcome] at h
        cases h
        exact hfailure

/-- A journal whose sink keeps its file in a directory that is to be made. -/
def logJournal : Journal := ⟨some ⟨⟨"", ["logs"]⟩, Sink.standardTail⟩, 0, []⟩

/-- An unknown name is reported in one line, and its diagnostic is what comes out. -/
theorem evaluate_observed_unknownName :
    let diag := Diagnostic.ofParse ⟨⟨.identifier, "x"⟩, ⟨1, 1⟩⟩ "x"
      (some ((Expectation.constant "x").text 100))
    ∃ files',
      logJournal.evaluate Vocabulary.standard.domain .standard "2024-01-02T03:04:05Z" "x\r\n" []
          1000 [] (.ofText ['x', '\r', '\n']) =
        (.error (.diagnosed diag), logJournal, files') ∧
      Sink.Logged [] files' [] ⟨⟨"", ["logs"]⟩, Sink.standardTail⟩
        [Event.ofDiagnostic "2024-01-02T03:04:05Z" "x\r\n" diag] := by
  intro diag
  have hworks := Sink.isWorking_logs Sink.standardTail
  have hlength : ['x', '\r', '\n'].length + 1 < Number.leastUnwritable :=
    Number.lt_leastUnwritable (by decide)
  obtain ⟨files', hevaluate, hlogged, -⟩ := evaluate_observed.2 .standard
    (.ofText ['x', '\r', '\n']) "2024-01-02T03:04:05Z" "x\r\n" [] 1000 logJournal [] _ rfl hworks
    hlength
  rw [evaluateSupply_unknownName] at hevaluate hlogged
  exact ⟨files', hevaluate, hlogged⟩

end Journal

end Calculator
