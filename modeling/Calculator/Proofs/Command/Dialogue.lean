import Calculator.Proofs.Command.Batch
import Calculator.Proofs.Source.Blocks
import Calculator.Proofs.Text.Unstyled

/-!
# Dialogues

A dialogue answers each expression on the lines of its input as if it were alone, up to the first
farewell (`Dialogue.perform_dialogue`). The step for one line comes first (`answer_leads`), then the
lines in order (`answerAll_leads`). Behind a farewell nothing is read (`answerAll_farewell`).
-/

set_option autoImplicit false

namespace Calculator

/-! ## Lines -/

namespace Text

theorem feedLinesFrom_append {line : List Char} (h : '\n' ∉ line) (current rest : List Char) :
    feedLinesFrom current (line ++ rest) = feedLinesFrom (line.reverse ++ current) rest := by
  induction line generalizing current with
  | nil => rfl
  | cons c line ih =>
      obtain ⟨hc, hline⟩ := not_or.1 fun hor => h (List.mem_cons.2 hor)
      rw [List.cons_append, feedLinesFrom, if_neg (Ne.symm hc), ih hline, List.reverse_cons,
        List.append_assoc, List.singleton_append]

/-- **Lines that each have a line feed behind them are found again**, and so is what stands behind
the last line feed, unless it is empty. -/
theorem feedLines_flatMap {lines : List (List Char)} {last : List Char}
    (h : ∀ l ∈ lines, '\n' ∉ l) (hlast : '\n' ∉ last) :
    feedLines (lines.flatMap (· ++ ['\n']) ++ last) =
      lines ++ if last = [] then [] else [last] := by
  induction lines with
  | nil =>
      have hend := feedLinesFrom_append hlast [] []
      rw [List.append_nil, List.append_nil] at hend
      rw [List.flatMap_nil, List.nil_append, List.nil_append, feedLines, hend, feedLinesFrom]
      simp
  | cons l lines ih =>
      obtain ⟨hl, hlines⟩ := List.forall_mem_cons.1 h
      rw [List.flatMap_cons, List.append_assoc, List.append_assoc, feedLines,
        feedLinesFrom_append hl, List.singleton_append, feedLinesFrom, if_pos rfl, ← feedLines,
        ih hlines, List.append_nil, List.reverse_reverse]
      rfl

end Text

namespace Dialogue

variable {env : Environment} {settings : Settings} {s s' : Session}

/-- The expressions on lines before the first farewell, without blanks at their ends. -/
def expressions (lines : List (List Char)) : List (List Char) :=
  ((lines.map Text.trim).takeWhile (!farewells.contains ·)).filter (!·.isEmpty)

/-- Whether there is a farewell on the lines. -/
def takesLeave (lines : List (List Char)) : Bool :=
  (lines.map Text.trim).any farewells.contains

/-- The lines of an input that are delivered whole. -/
def linesOf (input : List UInt8) : List (List Char) := (Supply.ofBytes input).lines

theorem linesOf_of_text {input : List UInt8} {text : List Char}
    (h : sourceOfBytes input = .ok text) : linesOf input = Text.feedLines text := by
  rw [linesOf, Supply.ofBytes_eq_ofText_iff.2 h]
  rfl

/-- A line is blank, a farewell, or an expression without blanks at its ends. -/
theorem Line.ofText_cases (line : List Char) :
    (Text.trim line = [] ∧ ofText line = .blank) ∨
      (Text.trim line ∈ farewells ∧ ofText line = .farewell) ∨
      Text.trim line ≠ [] ∧ Text.trim line ∉ farewells ∧
        ofText line = .expression (Text.trim line) := by
  by_cases hblank : Text.trim line = []
  · exact .inl ⟨hblank, if_pos hblank⟩
  · rw [ofText, if_neg hblank]
    by_cases hfarewell : Text.trim line ∈ farewells
    · exact .inr (.inl ⟨hfarewell, if_pos hfarewell⟩)
    · exact .inr (.inr ⟨hblank, hfarewell, if_neg hfarewell⟩)

theorem nil_notMem_farewells : [] ∉ farewells := by decide

theorem expressions_cons (line : List Char) (rest : List (List Char)) :
    expressions (line :: rest) =
      match Line.ofText line with
      | .blank => expressions rest
      | .farewell => []
      | .expression source => source :: expressions rest := by
  rcases Line.ofText_cases line with
    ⟨hblank, hline⟩ | ⟨hfarewell, hline⟩ | ⟨hblank, hfarewell, hline⟩
  · rw [hline]
    simp [expressions, hblank, nil_notMem_farewells]
  · rw [hline]
    simp [expressions, hfarewell]
  · rw [hline]
    simp [expressions, hblank, hfarewell]

example : expressions ["".toList, " 2".toList, "quit ".toList, "3".toList] = [['2']] := by decide

theorem takesLeave_cons (line : List Char) (rest : List (List Char)) :
    takesLeave (line :: rest) =
      match Line.ofText line with
      | .farewell => true
      | _ => takesLeave rest := by
  rcases Line.ofText_cases line with
    ⟨hblank, hline⟩ | ⟨hfarewell, hline⟩ | ⟨hblank, hfarewell, hline⟩
  · rw [hline]
    simp [takesLeave, hblank, nil_notMem_farewells]
  · rw [hline]
    simp [takesLeave, hfarewell]
  · rw [hline]
    simp [takesLeave, hfarewell]

/-! ## One expression -/

/-- What is printed for a value: the value by the template of the settings. -/
def valueLine? (env : Environment) (settings : Settings) (e : BatchEntry) : Option String :=
  match e.outcome with
  | .ok value => (Template.render settings.template value env.host).toOption.map fun text =>
      Text.plainText text ++ "\n"
  | .error _ => none

/-- What is reported of a diagnostic. -/
def faultReport? (e : BatchEntry) : Option String :=
  match e.outcome with
  | .ok _ => none
  | .error d => some (Text.plainText d.message ++ "\n")

/-- **A value is printed by the template**, without changes of style. -/
theorem exists_valueLine {e : BatchEntry} {value : Datum} {text : String}
    (hvalue : e.outcome = .ok value)
    (htext : Template.render settings.template value env.host = .ok text) :
    ∃ line, valueLine? env settings e = some (String.ofList line ++ "\n") ∧
      Text.Unstyled text.toList line := by
  refine ⟨_, ?_, Text.unstyled_plain _⟩
  rw [valueLine?, hvalue]
  dsimp only
  rw [htext]
  rfl

/-- **A diagnostic is reported by its message**, without changes of style. -/
theorem exists_faultReport {e : BatchEntry} {d : Diagnostic} (hfault : e.outcome = .error d) :
    ∃ report, faultReport? e = some (String.ofList report ++ "\n") ∧
      Text.Unstyled d.message.toList report := by
  refine ⟨_, ?_, Text.unstyled_plain _⟩
  rw [faultReport?, hfault]
  rfl

/-- The template presents the values of expressions. -/
def ArePresentable (env : Environment) (settings : Settings) (sources : List (List Char)) :
    Prop :=
  ∀ source ∈ sources, ∀ value,
    evaluate Vocabulary.standard.domain settings.depth source = .ok value →
      ∃ text, Template.render settings.template value env.host = .ok text

/-- **An expression is answered as if it were alone**: its value is printed, or its diagnostic is
reported, and its event is logged. -/
theorem answer_leads (env : Environment) (s : Session) {source : List Char}
    (h : ArePresentable env settings [source]) :
    ∃ (e : BatchEntry) (s' : Session), (answer env settings source).run s = (.ok (), s') ∧
      e.expression = String.ofList source ∧ e.IsAlone settings ∧
      s.Leads env s' [e.event env.now] (String.join (valueLine? env settings e).toList)
        (faultReport? e).toList := by
  obtain ⟨outcome, between, hattempt, halone, hleads⟩ :=
    Batch.attempt_leads env settings s (String.ofList source)
  rw [String.toList_ofList] at hattempt
  have hvalue : evaluate Vocabulary.standard.domain settings.depth source =
      outcome.mapError .diagnosed := by
    rw [← halone, String.toList_ofList]
  cases outcome with
  | ok value =>
      obtain ⟨text, htext⟩ := h source List.mem_cons_self value hvalue
      have hprint := hleads.trans
        (Session.leads_print env between (Text.plainText text ++ "\n"))
      refine ⟨⟨_, .ok value⟩, between.print (Text.plainText text ++ "\n"), ?_, rfl, halone, ?_⟩
      · rw [answer, Run.run_bind hattempt]
        exact Run.run_bind (Run.present_of_ok htext between)
      · rw [valueLine?, faultReport?]
        dsimp only
        rw [htext]
        rw [String.empty_append] at hprint
        exact hprint
  | error d =>
      have hreport := hleads.trans
        (Session.leads_report env between (Text.plainText d.message ++ "\n"))
      refine ⟨⟨_, .error d⟩, between.report (Text.plainText d.message ++ "\n"), ?_, rfl, halone, ?_⟩
      · rw [answer, Run.run_bind hattempt]
        rfl
      · exact hreport

/-! ## All lines -/

theorem prompt_run (h : env.isInteractive = false) (s : Session) :
    (prompt env).run s = (.ok (), s) := by
  rw [prompt, h]
  rfl

/-- **Behind a farewell nothing is read**, neither further lines nor what is at the end. -/
theorem answerAll_farewell {line : List Char} (h : Line.ofText line = .farewell)
    (front rest rest' : List (List Char)) (atEnd atEnd' : Run Unit) :
    answerAll env settings atEnd (front ++ line :: rest) =
      answerAll env settings atEnd' (front ++ line :: rest') := by
  induction front with
  | nil =>
      rw [List.nil_append, List.nil_append, answerAll, answerAll, step, h]
      rfl
  | cons first front ih =>
      rw [List.cons_append, List.cons_append, answerAll, answerAll, ih]

/-- **Each expression on the lines before a farewell is answered**, in order, and then comes what is
at the end, if there is no farewell. -/
theorem answerAll_leads (hsilent : env.isInteractive = false) (atEnd : Run Unit)
    {lines : List (List Char)} (h : ArePresentable env settings (expressions lines)) (s : Session) :
    ∃ (entries : List BatchEntry) (s' : Session),
      (answerAll env settings atEnd lines).run s =
        (if takesLeave lines then (.ok (), s') else atEnd.run s') ∧
      entries.map (·.expression) = (expressions lines).map String.ofList ∧
      (∀ e ∈ entries, e.IsAlone settings) ∧
      s.Leads env s' (entries.map (·.event env.now))
        (String.join (entries.filterMap (valueLine? env settings)))
        (entries.filterMap faultReport?) := by
  induction lines generalizing s with
  | nil =>
      refine ⟨[], s, ?_, rfl, List.forall_mem_nil _, .refl env s⟩
      rw [answerAll, Run.run_bind (prompt_run hsilent s)]
      rfl
  | cons line rest ih =>
      rw [expressions_cons] at h
      rw [expressions_cons, takesLeave_cons, answerAll, Run.run_bind (prompt_run hsilent s), step]
      cases hline : Line.ofText line with
      | blank =>
          rw [hline] at h
          exact ih h s
      | farewell =>
          exact ⟨[], s, rfl, rfl, List.forall_mem_nil _, .refl env s⟩
      | expression source =>
          rw [hline] at h
          obtain ⟨hsource, hrest⟩ : ArePresentable env settings [source] ∧
              ArePresentable env settings (expressions rest) := by
            have hboth := List.forall_mem_cons.1 h
            exact ⟨List.forall_mem_singleton.2 hboth.1, hboth.2⟩
          obtain ⟨e, between, hanswer, hexpression, halone, hleads⟩ :=
            answer_leads env s hsource
          obtain ⟨entries, s', hrun, hexpressions, hall, hleads'⟩ := ih hrest between
          have hvalues := filterMap_cons_toList (valueLine? env settings) e entries
          have hreports := filterMap_cons_toList faultReport? e entries
          refine ⟨e :: entries, s', ?_, ?_, List.forall_mem_cons.2 ⟨halone, hall⟩, ?_⟩
          · dsimp only
            rw [bind_assoc, Run.run_bind hanswer]
            exact hrun
          · rw [List.map_cons, hexpression, hexpressions, List.map_cons]
          · rw [hvalues, hreports, String.join_append]
            exact hleads.trans hleads'

/-! ## Whole dialogues -/

/-- The event at the start of a dialogue. -/
def started (ts : String) : Event := .make ts .info .replStarted "REPL started" []

/-- The events of a dialogue, in order. -/
def events (ts : String) (entries : List BatchEntry) : List Event :=
  started ts :: entries.map (·.event ts)

/-- What comes at the end of an input: nothing, if it is a text, and otherwise its failure. -/
theorem endOf_run (input : List UInt8) (s : Session) :
    ∃ result : Except Stop Unit, (endOf (.ofBytes input)).run s = (result, s) ∧
      (result = .ok () ↔ ∃ text, sourceOfBytes input = .ok text) ∧
      ∀ stop, result = .error stop → ∃ cause, stop = .failed cause := by
  rw [← Supply.failure?_ofBytes_eq_none_iff, endOf]
  cases (Supply.ofBytes input).failure? with
  | none => exact ⟨.ok (), rfl, by simp, fun stop h => by cases h⟩
  | some cause =>
      refine ⟨.error (.failed cause), rfl, by simp, fun stop h => ?_⟩
      cases h
      exact ⟨cause, rfl⟩

/-- How a dialogue over an input ends: well, if there is a farewell or the input is a text, and
otherwise with a failure. -/
structure Ends (input : List UInt8) (result : Except Stop Nat) : Prop where
  ok_iff :
    result = .ok 0 ↔ takesLeave (linesOf input) = true ∨ ∃ text, sourceOfBytes input = .ok text
  failed : result ≠ .ok 0 → ∃ cause, result = .error (.failed cause)

/-- Behind the lines comes what is at the end of the input, unless there is a farewell, and then the
status. -/
theorem exists_ends {x : Run Unit}
    (h : x.run s = if takesLeave (linesOf env.input) then (.ok (), s')
      else (endOf (.ofBytes env.input)).run s') :
    ∃ result : Except Stop Nat, (x >>= fun _ => pure 0 : Run Nat).run s = (result, s') ∧
      Ends env.input result := by
  obtain ⟨last, hend, hlast, hfailed⟩ := endOf_run env.input s'
  cases hleave : takesLeave (linesOf env.input) with
  | true =>
      rw [hleave, if_pos rfl] at h
      exact ⟨.ok 0, Run.run_bind h, by simp [hleave], by simp⟩
  | false =>
      rw [hleave, if_neg Bool.false_ne_true, hend] at h
      cases last with
      | ok u => exact ⟨.ok 0, Run.run_bind h, by simpa [hleave] using hlast, by simp⟩
      | error stop =>
          obtain ⟨cause, rfl⟩ := hfailed stop rfl
          refine ⟨.error (.failed cause), Run.run_bind_error h, ?_, fun _ => ⟨cause, rfl⟩⟩
          simpa [hleave] using hlast

/-- A dialogue logs its events, and prints and reports its answers. -/
theorem run_leads (env : Environment) (hsilent : env.isInteractive = false)
    (h : ArePresentable env settings (expressions (linesOf env.input))) (s : Session) :
    ∃ (entries : List BatchEntry) (s' : Session) (result : Except Stop Nat),
      (Dialogue.run env settings).run s = (result, s') ∧ Ends env.input result ∧
      entries.map (·.expression) = (expressions (linesOf env.input)).map String.ofList ∧
      (∀ e ∈ entries, e.IsAlone settings) ∧
      s.Leads env s' (events env.now entries)
        (String.join (entries.filterMap (valueLine? env settings)))
        (entries.filterMap faultReport?) := by
  have hstart : (start env).run s = (.ok (), s.log env (started env.now)) := rfl
  obtain ⟨entries, s', hrun, hexpressions, halone, hleads⟩ :=
    answerAll_leads hsilent (endOf (.ofBytes env.input)) h (s.log env (started env.now))
  have hevents := (Session.leads_log env s (started env.now)).trans hleads
  rw [String.empty_append] at hevents
  obtain ⟨result, hresult, hends⟩ := exists_ends hrun
  refine ⟨entries, s', result, ?_, hends, hexpressions, halone, hevents⟩
  rw [Dialogue.run, Run.run_bind hstart]
  exact hresult

theorem isLogged_events {entries : List BatchEntry}
    (h : ∀ e ∈ entries, e.IsAlone settings ∧
      e.expression.length + 1 < Number.leastUnwritable) (ts : String) :
    ∀ e ∈ events ts entries, Sink.IsLogged e := by
  refine List.forall_mem_cons.2 ⟨?_, ?_⟩
  · apply Event.isLogged_make
    · exact ⟨List.nodup_nil, trivial⟩
    · rfl
    · exact (by decide : 2 ≤ Json.deepest)
  · intro e he
    obtain ⟨entry, hentry, rfl⟩ := List.mem_map.1 he
    obtain ⟨halone, hlength⟩ := h entry hentry
    exact entry.isLogged_event halone hlength ts

/-- The outputs and the log of a dialogue agree with the entries for its lines. -/
structure Answered (env : Environment) (settings : Settings) (s s' : Session)
    (entries : List BatchEntry) : Prop where
  /-- The lines of a text are those that line feeds stand behind, and the last one even if no line
  feed does. -/
  lines_eq : ∀ (lines : List (List Char)) (last : List Char), (∀ l ∈ lines, '\n' ∉ l) →
    '\n' ∉ last → sourceOfBytes env.input = .ok (lines.flatMap (· ++ ['\n']) ++ last) →
    linesOf env.input = lines ++ if last = [] then [] else [last]
  /-- There is one entry for each expression before the first farewell, in order. -/
  expressions_eq :
    entries.map (·.expression) = (expressions (linesOf env.input)).map String.ofList
  /-- What stands behind a farewell is not read. -/
  unread : ∀ front line rest, linesOf env.input = front ++ line :: rest →
    Line.ofText line = .farewell → ∀ (rest' : List (List Char)) (atEnd atEnd' : Run Unit),
      answerAll env settings atEnd (linesOf env.input) =
        answerAll env settings atEnd' (front ++ line :: rest')
  /-- Each has the outcome that its expression has alone. -/
  alone : ∀ e ∈ entries, e.IsAlone settings
  /-- Each value can be printed. -/
  presentable : ∀ e ∈ entries, e.IsPresentable env settings
  /-- The values are printed. -/
  output : s'.out = s.out ++ String.join (entries.filterMap (valueLine? env settings))
  /-- The line of a value is the value by the template, without changes of style. -/
  line : ∀ e ∈ entries, ∀ value text, e.outcome = .ok value →
    Template.render settings.template value env.host = .ok text →
    ∃ line, valueLine? env settings e = some (String.ofList line ++ "\n") ∧
      Text.Unstyled text.toList line
  /-- The diagnostics are reported. -/
  errors : Reported s.err (entries.filterMap faultReport?) s'.err
  /-- The report of a diagnostic is its message, without changes of style. -/
  report : ∀ e ∈ entries, ∀ d, e.outcome = .error d →
    ∃ report, faultReport? e = some (String.ofList report ++ "\n") ∧
      Text.Unstyled d.message.toList report
  /-- Without a log there are no warnings. -/
  unlogged : s.journal.sink = none →
    s'.err = s.err ++ String.join (entries.filterMap faultReport?)
  /-- A working log gets a line at the start and one for each entry. -/
  logged : ∀ sink : Sink, s.journal.sink = some sink → sink.IsWorking s.files env.directory →
    (∀ x ∈ expressions (linesOf env.input), x.length + 1 < Number.leastUnwritable) →
    sink.Logged s.files s'.files env.directory (events env.now entries) ∧
      s'.journal = s.journal ∧
      s'.err = s.err ++ String.join (entries.filterMap faultReport?)

/-- **A dialogue is the image of its lines.** Each expression before the first farewell is answered
and logged as if it were alone, and nothing else is. -/
theorem perform_dialogue (env : Environment) (settings : Settings) (s : Session)
    (hsilent : env.isInteractive = false)
    (h : ArePresentable env settings (expressions (linesOf env.input))) :
    ∃ (entries : List BatchEntry) (s' : Session) (result : Except Stop Nat),
      (Call.perform env settings .dialogue).run s = (result, s') ∧ Ends env.input result ∧
      Answered env settings s s' entries := by
  obtain ⟨entries, s', result, hrun, hends, hexpressions, halone, hleads⟩ :=
    run_leads env hsilent h s
  have hmem : ∀ e ∈ entries, ∃ source ∈ expressions (linesOf env.input),
      String.ofList source = e.expression := by
    intro e he
    apply List.mem_map.1
    rw [← hexpressions]
    exact List.mem_map_of_mem he
  refine ⟨entries, s', result, hrun, hends, ?_⟩
  exact
    { lines_eq := by
        intro lines last hlines hlast htext
        rw [linesOf_of_text htext, Text.feedLines_flatMap hlines hlast]
      expressions_eq := hexpressions
      unread := by
        intro front line rest hlines hline rest' atEnd atEnd'
        rw [hlines]
        exact answerAll_farewell hline front rest rest' atEnd atEnd'
      alone := halone
      presentable := by
        intro e he value hvalue
        obtain ⟨source, hsource, hexpression⟩ := hmem e he
        apply h source hsource value
        have hentry := halone e he
        rw [BatchEntry.IsAlone, ← hexpression, String.toList_ofList, hvalue] at hentry
        exact hentry
      output := hleads.output
      line := fun _ _ _ _ hvalue htext => exists_valueLine hvalue htext
      errors := hleads.errors
      report := fun _ _ _ hfault => exists_faultReport hfault
      unlogged := by
        intro hsink
        rw [hleads.silent hsink]
        rfl
      logged := by
        intro sink hsink hworks hshort
        have hlengths : ∀ e ∈ entries, e.IsAlone settings ∧
            e.expression.length + 1 < Number.leastUnwritable := by
          intro e he
          obtain ⟨source, hsource, hexpression⟩ := hmem e he
          refine ⟨halone e he, ?_⟩
          rw [← hexpression, String.length_ofList]
          exact hshort source hsource
        obtain ⟨files', hs', hlogged⟩ :=
          hleads.logged sink hsink hworks (isLogged_events hlengths env.now)
        refine ⟨?_, ?_, ?_⟩
        · rw [hs']
          exact hlogged
        · rw [hs']
          rfl
        · rw [hs']
          rfl }

/-- A run with an input in an empty tree of files. -/
def fedEnvironment (input : List UInt8) : Environment := { Batch.bareEnvironment with input }

theorem arePresentable_of_isAlone {e : BatchEntry} {value : Datum} {text : String}
    (h : e.IsAlone settings) (hvalue : e.outcome = .ok value)
    (htext : Template.render settings.template value env.host = .ok text) :
    ArePresentable env settings [e.expression.toList] := by
  refine List.forall_mem_singleton.2 fun value' hvalue' => ⟨text, ?_⟩
  rw [BatchEntry.IsAlone, hvalue', hvalue] at h
  obtain rfl := Except.ok.inj h
  exact htext

/-- The only expression of a dialogue is answered. -/
theorem unique_entry {entries : List BatchEntry} {e : BatchEntry} (he : e.IsAlone settings)
    (hexpressions : entries.map (·.expression) = [e.expression])
    (halone : ∀ e ∈ entries, e.IsAlone settings) : entries = [e] := by
  obtain ⟨first, rest, rfl, hfirst, hrest⟩ := List.map_eq_cons_iff.1 hexpressions
  obtain rfl := List.map_eq_nil_iff.1 hrest
  obtain rfl := (halone first List.mem_cons_self).unique he hfirst
  rfl

/-- A blank line is passed over, an expression is answered without the blanks at its ends, and what
stands behind the farewell is not read. -/
theorem perform_dialogue_farewell :
    let input := Text.Utf8.encode "\n  2\nquit \n2\n".toList
    ∃ s' : Session,
      (Call.perform (fedEnvironment input) .standard .dialogue).run Batch.bareSession =
        (.ok 0, s') ∧
      s'.out = "2\n" ∧ s'.err = "" ∧
      Sink.Logged [] s'.files [] ⟨⟨"", ["logs"]⟩, Sink.standardTail⟩
        [started "2024-01-02T03:04:05Z",
         .ofValue "2024-01-02T03:04:05Z" "2" (.number (.float 2))] := by
  intro input
  have hlines : linesOf (fedEnvironment input).input =
      ["".toList, "  2".toList, "quit ".toList, "2".toList] := by decide +kernel
  have hexpressions : expressions (linesOf (fedEnvironment input).input) = [['2']] := by
    rw [hlines]
    decide
  have htwo : BatchEntry.IsAlone .standard ⟨"2", .ok (.number (.float 2))⟩ := Batch.evaluate_two
  have hpresentable : ArePresentable (fedEnvironment input) .standard
      (expressions (linesOf (fedEnvironment input).input)) := by
    rw [hexpressions]
    exact arePresentable_of_isAlone htwo rfl Batch.render_two
  obtain ⟨entries, s', result, hrun, hends, hanswered⟩ :=
    perform_dialogue (fedEnvironment input) .standard Batch.bareSession rfl hpresentable
  have hleave : takesLeave (linesOf (fedEnvironment input).input) = true := by
    rw [hlines]
    decide
  obtain rfl := hends.ok_iff.2 (.inl hleave)
  have hentries := hanswered.expressions_eq
  rw [hexpressions] at hentries
  obtain rfl := unique_entry htwo hentries hanswered.alone
  have hshort : ∀ x ∈ expressions (linesOf (fedEnvironment input).input),
      x.length + 1 < Number.leastUnwritable := by
    rw [hexpressions]
    exact List.forall_mem_singleton.2 (Number.lt_leastUnwritable (by decide))
  obtain ⟨hlogged, -, herr⟩ :=
    hanswered.logged _ rfl (Sink.isWorking_logs Sink.standardTail) hshort
  refine ⟨s', hrun, ?_, herr, hlogged⟩
  have hplain : Text.plainText "2" = "2" := by
    rw [Text.plainText, Text.plain_eq_self (by decide)]
    rfl
  have hrender : Template.render Settings.standard.template (.number (.float 2))
      (fedEnvironment input).host = .ok "2" := Batch.render_two
  rw [hanswered.output, filterMap_cons_toList, valueLine?]
  dsimp only
  rw [hrender]
  show "" ++ String.join [Text.plainText "2" ++ "\n"] = "2\n"
  rw [hplain]
  rfl

/-- Settings whose template prints values in bold. -/
def boldSettings : Settings := { Settings.standard with template := "\x1b[1m\x7b\x7d\x1b[0m" }

/-- A session whose log cannot be written, because a directory is in its place. -/
def blockedSession : Session :=
  { Session.start [(["logs"], .directory), (["logs", "events.ndjson"], .directory)] with
    journal := Journal.logJournal }

/-- A dialogue by these settings. -/
def boldDialogue (input : List UInt8) (s : Session) : Except Stop Nat × Session :=
  (Call.perform (fedEnvironment input) boldSettings .dialogue).run s

/-- **Changes of style are left out of what is printed**, so that it is not the text of the value,
an input that is no text has no status, and a log that does not work adds its warnings. -/
theorem perform_dialogue_bold :
    (Template.render boldSettings.template (.number (.float 2))).toOption =
        some "\x1b[1m2.0\x1b[0m" ∧
      (boldDialogue (Text.Utf8.encode ['2', '\n']) (.start [])).1.toOption = some 0 ∧
      (boldDialogue (Text.Utf8.encode ['2', '\n']) (.start [])).2.out = "2.0\n" ∧
      (boldDialogue (Text.Utf8.encode ['2', '\n']) (.start [])).2.out ≠
        "\x1b[1m2.0\x1b[0m" ++ "\n" ∧
    (boldDialogue [0xFF] (.start [])).1.toOption = none ∧
    ∃ text, (boldDialogue [] blockedSession).2.err = Session.warningLine text := by
  have hout : (boldDialogue (Text.Utf8.encode ['2', '\n']) (.start [])).2.out = "2.0\n" := by
    decide +kernel
  have hwarning : (boldDialogue [] blockedSession).2.err = Session.warningLine
      "logging failed: [Errno 21] Is a directory: 'logs/events.ndjson'" := by
    decide +kernel
  refine ⟨by decide +kernel, by decide +kernel, hout, ?_, by decide +kernel, _, hwarning⟩
  rw [hout]
  decide

end Dialogue

end Calculator
