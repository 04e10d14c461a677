import Calculator.Proofs.Command.Dialogue
import Calculator.Proofs.Command.JsonBatch
import Calculator.Proofs.Text.Unstyled

/-!
# Consistency of batches

The status, the outputs and the log of a batch come from different places, and they agree on the
outcomes of its expressions (`Batch.perform_batch`). What is printed as a line or reported has no
changes of style in it, so it is not always the text of the template (`Batch.perform_batch_bold`).
-/

set_option autoImplicit false

namespace Calculator

namespace BatchEntry

variable {env : Environment} {settings : Settings} {e : BatchEntry}

/-- **A value is printed behind its expression and an equals sign**, without changes of style. -/
theorem exists_valueLine {value : Datum} {text : String} (hvalue : e.outcome = .ok value)
    (htext : Template.render settings.template value env.host = .ok text) :
    ∃ line, e.valueLine? env settings = some (String.ofList line ++ "\n") ∧
      Text.Unstyled (e.expression ++ " = " ++ text).toList line := by
  refine ⟨_, ?_, Text.unstyled_plain _⟩
  rw [valueLine?, hvalue]
  dsimp only
  rw [htext]
  rfl

/-- **A diagnostic is reported below its expression**, without changes of style. -/
theorem exists_faultReport {d : Diagnostic} (hfault : e.outcome = .error d) :
    ∃ report, e.faultReport? = some (String.ofList report ++ "\n") ∧
      Text.Unstyled ("Error evaluating \"" ++ e.expression ++ "\":\n" ++ d.message).toList
        report := by
  refine ⟨_, ?_, Text.unstyled_plain _⟩
  rw [faultReport?, hfault]
  rfl

end BatchEntry

namespace Batch

variable {env : Environment} {settings : Settings} {s s' : Session}

/-- The failures are the diagnostics among the outcomes. -/
theorem failures_eq (entries : List BatchEntry) :
    failures entries = (entries.filter fun e => e.outcome matches .error _).length := by
  rw [failures, List.countP_eq_length_filter]
  refine congrArg List.length (List.filter_congr fun e _ => ?_)
  rw [BatchEntry.isFailed]
  cases e.outcome with
  | ok value => rfl
  | error d => rfl

/-- The outputs and the log of a batch agree with its entries. -/
structure Consistent (env : Environment) (settings : Settings) (json : Bool)
    (expressions : List String) (s s' : Session) (entries : List BatchEntry) : Prop where
  /-- There is one entry for each expression, in order. -/
  expressions_eq : entries.map (·.expression) = expressions
  /-- Each has the outcome that its expression has alone. -/
  alone : ∀ e ∈ entries, e.IsAlone settings
  /-- The failures are the diagnostics among the outcomes. -/
  failures_eq : failures entries = (entries.filter fun e => e.outcome matches .error _).length
  /-- As JSON the entries are printed in a list of records that tell them. -/
  listed : json = true →
    ∃ text, s'.out = s.out ++ text ∧ Listed settings expressions entries text.toList
  /-- Without JSON a line is printed for each value. -/
  printed : json = false →
    s'.out = s.out ++ String.join (entries.filterMap (·.valueLine? env settings))
  /-- The line has the expression and the value by the template, without changes of style. -/
  line : ∀ e ∈ entries, ∀ value text, e.outcome = .ok value →
    Template.render settings.template value env.host = .ok text →
    ∃ line, e.valueLine? env settings = some (String.ofList line ++ "\n") ∧
      Text.Unstyled (e.expression ++ " = " ++ text).toList line
  /-- The report has the expression and the message of the diagnostic, without changes of style. -/
  report : ∀ e ∈ entries, ∀ d, e.outcome = .error d →
    ∃ report, e.faultReport? = some (String.ofList report ++ "\n") ∧
      Text.Unstyled ("Error evaluating \"" ++ e.expression ++ "\":\n" ++ d.message).toList report
  /-- The diagnostics are reported, unless they are printed as JSON. -/
  errors : Reported s.err (faultReports json entries) s'.err
  /-- Without JSON, each entry has a line or a report. -/
  counts : json = false →
    (entries.filterMap (·.valueLine? env settings)).length + failures entries = expressions.length ∧
      (faultReports json entries).length = failures entries
  /-- Without a log there are no warnings. -/
  unlogged : s.journal.sink = none →
    s'.err = s.err ++ String.join (faultReports json entries)
  /-- A working log gets a line at the start, one for each entry and one at the end, none of them a
  warning. -/
  logged : ∀ sink : Sink, s.journal.sink = some sink → sink.IsWorking s.files env.directory →
    expressions.length < Number.leastUnwritable →
    (∀ x ∈ expressions, x.length + 1 < Number.leastUnwritable) →
    sink.Logged s.files s'.files env.directory (events env.now entries) ∧
      (events env.now entries).length = expressions.length + 2 ∧
      (∀ e ∈ events env.now entries, e.level ≠ .warning) ∧
      s'.journal = s.journal ∧ s'.err = s.err ++ String.join (faultReports json entries)

/-- **A batch is reported and logged consistently.** It ends with a status that tells whether there
was a diagnostic, and its outputs and the log agree on the outcomes of its expressions, each of
which is the outcome of the expression alone. -/
theorem perform_batch (env : Environment) (settings : Settings) (s : Session)
    (expressions : List String) (json : Bool) (h : ArePresentable env settings json expressions) :
    ∃ (entries : List BatchEntry) (s' : Session),
      (Call.perform env settings (.batch expressions json)).run s =
        (.ok (if failures entries = 0 then 0 else 1), s') ∧
      Consistent env settings json expressions s s' entries := by
  obtain ⟨entries, s', hrun, hexpressions, halone, hleads⟩ := run_leads env h s
  have hlength : entries.length = expressions.length := by
    rw [← hexpressions, List.length_map]
  have hmem : ∀ e ∈ entries, e.expression ∈ expressions := by
    intro e he
    rw [← hexpressions]
    exact List.mem_map_of_mem he
  refine ⟨entries, s', hrun, ?_⟩
  exact
    { expressions_eq := hexpressions
      alone := halone
      failures_eq := failures_eq entries
      listed := by
        rintro rfl
        exact ⟨_, hleads.output, listed_renderIndented hexpressions halone⟩
      printed := by
        rintro rfl
        exact hleads.output
      line := fun _ _ _ _ hvalue htext => BatchEntry.exists_valueLine hvalue htext
      report := fun _ _ _ hfault => BatchEntry.exists_faultReport hfault
      errors := hleads.errors
      counts := by
        rintro rfl
        have hpresentable : ∀ e ∈ entries, e.IsPresentable env settings := fun e he =>
          isPresentable_of_isAlone h (hmem e he) (halone e he)
        rw [← hlength]
        exact ⟨length_valueLines hpresentable, length_faultReports entries⟩
      unlogged := by
        intro hsink
        rw [hleads.silent hsink]
        rfl
      logged := by
        intro sink hsink hworks hcount hshort
        have hfit := isLogged_events (hlength ▸ hcount)
          (fun e he => ⟨halone e he, hshort _ (hmem e he)⟩) env.now
        obtain ⟨files', hs', hlogged⟩ := hleads.logged sink hsink hworks hfit
        refine ⟨?_, ?_, level_events_ne_warning env.now entries, ?_, ?_⟩
        · rw [hs']
          exact hlogged
        · simp [events, hlength]
        · rw [hs']
          rfl
        · rw [hs']
          rfl }

/-- A value and an unknown name: the one is printed, the other is reported, and the log has both. -/
theorem perform_batch_mixed :
    let diag := Diagnostic.ofParse ⟨⟨.identifier, "x"⟩, ⟨1, 1⟩⟩ "x"
      (some ((Expectation.constant "x").text 100))
    let ts := "2024-01-02T03:04:05Z"
    ∃ s' : Session,
      (Call.perform bareEnvironment .standard (.batch ["2", "x\r\n"] false)).run bareSession =
        (.ok 1, s') ∧
      s'.out = "2 = 2\n" ∧
      s'.err = Text.plainText s!"Error evaluating \"x\r\n\":\n{diag.message}" ++ "\n" ∧
      Sink.Logged [] s'.files [] ⟨⟨"", ["logs"]⟩, Sink.standardTail⟩
        [started ts 2, .ofValue ts "2" (.number (.float 2)), .ofDiagnostic ts "x\r\n" diag,
         completed ts 2 1] := by
  intro diag ts
  have hvalue : evaluate Vocabulary.standard.domain .standard "2".toList =
      .ok (.number (.float 2)) := evaluate_two
  have hfault : evaluate Vocabulary.standard.domain .standard "x\r\n".toList =
      .error (.diagnosed diag) := evaluateSupply_unknownName
  have htwo : BatchEntry.IsAlone .standard ⟨"2", .ok (.number (.float 2))⟩ := hvalue
  have hname : BatchEntry.IsAlone .standard ⟨"x\r\n", .error diag⟩ := hfault
  have hpresentable : ArePresentable bareEnvironment .standard false ["2", "x\r\n"] := by
    right
    intro x hx value hvalue
    rcases List.mem_cons.1 hx with rfl | hx
    · obtain rfl := Except.ok.inj (htwo.symm.trans hvalue)
      exact ⟨"2", render_two⟩
    · obtain rfl := List.mem_singleton.1 hx
      cases hname.symm.trans hvalue
  obtain ⟨entries, s', hrun, hconsistent⟩ :=
    perform_batch bareEnvironment .standard bareSession ["2", "x\r\n"] false hpresentable
  -- the entries are those of the two expressions
  obtain ⟨first, others, rfl, hfirst, hothers⟩ := List.map_eq_cons_iff.1 hconsistent.expressions_eq
  obtain ⟨second, rest, rfl, hsecond, hrest⟩ := List.map_eq_cons_iff.1 hothers
  obtain rfl := List.map_eq_nil_iff.1 hrest
  obtain rfl := (hconsistent.alone _ List.mem_cons_self).unique htwo hfirst
  obtain rfl := (hconsistent.alone _ (List.mem_cons_of_mem _ List.mem_cons_self)).unique hname
    hsecond
  have hworks := Sink.isWorking_logs Sink.standardTail
  have hshort : ∀ x ∈ ["2", "x\r\n"], x.length + 1 < Number.leastUnwritable := by
    intro x hx
    apply Number.lt_leastUnwritable
    revert x
    decide
  obtain ⟨hlogged, -, -, -, herr⟩ := hconsistent.logged _ rfl hworks
    (Number.lt_leastUnwritable (by decide)) hshort
  refine ⟨s', hrun, ?_, ?_, hlogged⟩
  · have hline : BatchEntry.valueLine? bareEnvironment .standard
        ⟨"2", .ok (.number (.float 2))⟩ = some "2 = 2\n" := by
      have hplain : Text.plainText "2 = 2" = "2 = 2" := by
        rw [Text.plainText, Text.plain_eq_self (by decide)]
        rfl
      rw [BatchEntry.valueLine?]
      dsimp only
      rw [render_two]
      exact congrArg (fun line => some (line ++ "\n")) hplain
    rw [hconsistent.printed rfl, filterMap_cons_toList, hline]
    rfl
  · rw [herr]
    rfl

/-- A batch by settings whose template prints values in bold. -/
def boldBatch : Except Stop Nat × Session :=
  (Call.perform bareEnvironment Dialogue.boldSettings (.batch ["2"] false)).run (.start [])

/-- **Changes of style are left out of what is printed**, so that it is not the text of the value
by the template. -/
theorem perform_batch_bold :
    evaluate Vocabulary.standard.domain Dialogue.boldSettings.depth ['2'] =
        .ok (.number (.float 2)) ∧
      (Template.render Dialogue.boldSettings.template (.number (.float 2))).toOption =
        some "\x1b[1m2.0\x1b[0m" ∧
      boldBatch.1.toOption = some 0 ∧ boldBatch.2.out = "2 = 2.0\n" ∧
      boldBatch.2.out ≠ "2 = " ++ "\x1b[1m2.0\x1b[0m" ++ "\n" := by
  have hout : boldBatch.2.out = "2 = 2.0\n" := by decide +kernel
  refine ⟨evaluate_two, by decide +kernel, by decide +kernel, hout, ?_⟩
  rw [hout]
  decide

end Batch

end Calculator
