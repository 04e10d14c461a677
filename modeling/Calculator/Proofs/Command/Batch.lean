import Calculator.Command.Call
import Calculator.Proofs.Command.Session
import Calculator.Proofs.Evaluation.Pointing

/-!
# Batches

A batch evaluates each of its expressions as if it were alone. It prints or reports their outcomes
and logs their events between those at its start and its end (`Batch.run_leads`). The steps for one
expression come first (`attempt_leads`, `print_leads`), then those for all of them in order
(`evaluateAll_leads`).
-/

set_option autoImplicit false

namespace Calculator

/-- Of the first item there is at most one result, and then come those of the others. -/
theorem filterMap_cons_toList {α β : Type} (f : α → Option β) (a : α) (rest : List α) :
    (a :: rest).filterMap f = (f a).toList ++ rest.filterMap f := by
  rw [List.filterMap_cons]
  cases f a with
  | none => rfl
  | some b => rfl

/-! ## Entries -/

namespace BatchEntry

/-- The outcome of an entry is that of its expression alone. -/
def IsAlone (settings : Settings) (e : BatchEntry) : Prop :=
  evaluate Vocabulary.standard.domain settings.depth e.expression.toList =
    e.outcome.mapError .diagnosed

/-- The event of an entry, as it is logged. -/
def event (ts : String) (e : BatchEntry) : Event :=
  match e.outcome with
  | .ok value => .ofValue ts e.expression value
  | .error d => .ofDiagnostic ts e.expression d

/-- What is printed for a value: the expression, and the value by the template of the settings. -/
def valueLine? (env : Environment) (settings : Settings) (e : BatchEntry) : Option String :=
  match e.outcome with
  | .ok value => (Template.render settings.template value env.host).toOption.map fun text =>
      Text.plainText s!"{e.expression} = {text}" ++ "\n"
  | .error _ => none

/-- What is reported of a diagnostic. -/
def faultReport? (e : BatchEntry) : Option String :=
  match e.outcome with
  | .ok _ => none
  | .error d => some (Text.plainText s!"Error evaluating \"{e.expression}\":\n{d.message}" ++ "\n")

/-- The template of the settings can present the value, if there is one. -/
def IsPresentable (env : Environment) (settings : Settings) (e : BatchEntry) : Prop :=
  ∀ value, e.outcome = .ok value →
    ∃ text, Template.render settings.template value env.host = .ok text

variable {settings : Settings} {e : BatchEntry} {ts : String}

theorem ofOutcome_eq (ts : String) (e : BatchEntry) :
    Event.ofOutcome ts e.expression (e.outcome.mapError .diagnosed) = [e.event ts] := by
  unfold event
  cases e.outcome with
  | ok value => rfl
  | error d => rfl

/-- **An entry is determined by its expression**, whatever else is in the batch. -/
theorem IsAlone.unique {e' : BatchEntry} (h : e.IsAlone settings) (h' : e'.IsAlone settings)
    (hexpression : e.expression = e'.expression) : e = e' := by
  obtain ⟨x, outcome⟩ := e
  obtain ⟨y, outcome'⟩ := e'
  obtain rfl : x = y := hexpression
  have houtcome : outcome.mapError Trouble.diagnosed = outcome'.mapError Trouble.diagnosed :=
    h.symm.trans h'
  cases outcome with
  | ok value =>
      cases outcome' with
      | ok value' => rw [Except.ok.inj houtcome]
      | error d' => cases houtcome
  | error d =>
      cases outcome' with
      | ok value' => cases houtcome
      | error d' => rw [Trouble.diagnosed.inj (Except.error.inj houtcome)]

theorem event_level_ne_warning (ts : String) (e : BatchEntry) : (e.event ts).level ≠ .warning := by
  unfold event
  cases e.outcome with
  | ok value => exact fun h => by cases h
  | error d => exact fun h => by cases h

theorem isLogged_event (h : e.IsAlone settings)
    (hlength : e.expression.length + 1 < Number.leastUnwritable) (ts : String) :
    Sink.IsLogged (e.event ts) := by
  have hfits : ∀ e' ∈ Event.ofOutcome ts e.expression
      (evaluateSupply Vocabulary.standard.domain settings.depth (.ofText e.expression.toList)),
      Sink.IsLogged e' := Event.isLogged_ofOutcome ts e.expression settings.depth hlength
  rw [evaluateSupply_ofText, h, ofOutcome_eq] at hfits
  exact hfits _ List.mem_cons_self

end BatchEntry

namespace Batch

variable {env : Environment} {settings : Settings} {s s' : Session}

/-! ## One expression -/

theorem attempt_run {label : String} {source : Supply} {outcome : Except Diagnostic Datum}
    (h : s.evaluate env settings label source = (outcome.mapError .diagnosed, s')) :
    (Run.attempt env settings label source).run s = (.ok outcome, s') := by
  have hget : (get : Run Session).run s = (.ok s, s) := rfl
  unfold Run.attempt
  rw [Run.run_bind hget, h]
  cases outcome with
  | ok d => rfl
  | error t => rfl

/-- **An expression has the outcome that it has alone**, and its event is logged. -/
theorem attempt_leads (env : Environment) (settings : Settings) (s : Session)
    (expression : String) :
    ∃ (outcome : Except Diagnostic Datum) (s' : Session),
      (Run.attempt env settings expression (.ofText expression.toList)).run s =
        (.ok outcome, s') ∧
      BatchEntry.IsAlone settings ⟨expression, outcome⟩ ∧
      s.Leads env s' [BatchEntry.event env.now ⟨expression, outcome⟩] "" [] := by
  rcases Event.evaluationEvent_standard env.now expression settings.depth
    (.ofText expression.toList) with ⟨e, hevent, hlogged⟩ | ⟨cause, -, hfailure⟩
  · obtain ⟨hsame, hleads⟩ := Session.leads_evaluate (s := s) hevent
    obtain ⟨outcome, houtcome⟩ : ∃ outcome : Except Diagnostic Datum,
        evaluateSupply Vocabulary.standard.domain settings.depth (.ofText expression.toList) =
          outcome.mapError .diagnosed := by
      cases houtcome : evaluateSupply Vocabulary.standard.domain settings.depth
          (.ofText expression.toList) with
      | ok v => exact ⟨.ok v, rfl⟩
      | error trouble =>
          cases trouble with
          | diagnosed d => exact ⟨.error d, rfl⟩
          | escaped cause =>
              rw [houtcome] at hevent
              cases hevent
    rw [houtcome] at hsame hlogged
    rw [BatchEntry.ofOutcome_eq env.now ⟨expression, outcome⟩] at hlogged
    rw [← hlogged] at hleads
    exact ⟨outcome, _, attempt_run (Prod.ext hsame rfl), houtcome, hleads⟩
  · cases hfailure

/-- A value is printed, and a diagnostic is reported. -/
theorem print_leads (env : Environment) (s : Session) {e : BatchEntry}
    (h : e.IsPresentable env settings) :
    ∃ s', (e.print env settings).run s = (.ok (), s') ∧
      s.Leads env s' [] (String.join (e.valueLine? env settings).toList) e.faultReport?.toList := by
  cases houtcome : e.outcome with
  | ok value =>
      obtain ⟨text, htext⟩ := h value houtcome
      have hline : e.valueLine? env settings =
          some (Text.plainText s!"{e.expression} = {text}" ++ "\n") := by
        rw [BatchEntry.valueLine?, houtcome]
        dsimp only
        rw [htext]
        rfl
      have hreport : e.faultReport? = none := by
        rw [BatchEntry.faultReport?, houtcome]
      refine ⟨s.print (Text.plainText s!"{e.expression} = {text}" ++ "\n"), ?_, ?_⟩
      · rw [BatchEntry.print, houtcome]
        exact Run.run_bind (Run.present_of_ok htext s)
      · rw [hline, hreport, Option.toList_some, String.join_cons, String.join_nil,
          String.append_empty]
        exact Session.leads_print env s _
  | error d =>
      have hline : e.valueLine? env settings = none := by
        rw [BatchEntry.valueLine?, houtcome]
      have hreport : e.faultReport? =
          some (Text.plainText s!"Error evaluating \"{e.expression}\":\n{d.message}" ++ "\n") := by
        rw [BatchEntry.faultReport?, houtcome]
      refine ⟨s.report
        (Text.plainText s!"Error evaluating \"{e.expression}\":\n{d.message}" ++ "\n"), ?_, ?_⟩
      · unfold BatchEntry.print
        rw [houtcome]
        rfl
      · rw [hline, hreport]
        exact Session.leads_report env s _

/-! ## All expressions -/

/-- What is printed while expressions are evaluated. -/
def valueLines (env : Environment) (settings : Settings) (json : Bool)
    (entries : List BatchEntry) : List String :=
  if json then [] else entries.filterMap (·.valueLine? env settings)

/-- What is reported while expressions are evaluated. -/
def faultReports (json : Bool) (entries : List BatchEntry) : List String :=
  if json then [] else entries.filterMap BatchEntry.faultReport?

/-- The template presents the values of expressions, unless JSON is wanted. -/
def ArePresentable (env : Environment) (settings : Settings) (json : Bool)
    (expressions : List String) : Prop :=
  json = true ∨ ∀ x ∈ expressions, ∀ value,
    evaluate Vocabulary.standard.domain settings.depth x.toList = .ok value →
      ∃ text, Template.render settings.template value env.host = .ok text

theorem isPresentable_of_isAlone {e : BatchEntry} {expressions : List String}
    (h : ArePresentable env settings false expressions) (hmem : e.expression ∈ expressions)
    (halone : e.IsAlone settings) : e.IsPresentable env settings := by
  rcases h with h | h
  · cases h
  · intro value hvalue
    apply h e.expression hmem value
    rw [halone, hvalue]
    rfl

/-- **Each of the expressions has an entry of its own**, in order: its event is logged, and unless
JSON is wanted its outcome is printed or reported. -/
theorem evaluateAll_leads (env : Environment) {json : Bool} {expressions : List String}
    (h : ArePresentable env settings json expressions) (s : Session) :
    ∃ (entries : List BatchEntry) (s' : Session),
      (evaluateAll env settings json expressions).run s = (.ok entries, s') ∧
      entries.map (·.expression) = expressions ∧ (∀ e ∈ entries, e.IsAlone settings) ∧
      s.Leads env s' (entries.map (·.event env.now))
        (String.join (valueLines env settings json entries)) (faultReports json entries) := by
  induction expressions generalizing s with
  | nil =>
      have hleads : s.Leads env s [] (String.join (valueLines env settings json []))
          (faultReports json []) := by
        cases json with
        | false => exact .refl env s
        | true => exact .refl env s
      exact ⟨[], s, rfl, rfl, List.forall_mem_nil _, hleads⟩
  | cons x rest ih =>
      obtain ⟨outcome, between, hattempt, halone, hleads⟩ := attempt_leads env settings s x
      have hrest : ArePresentable env settings json rest :=
        h.imp_right fun h y hy => h y (List.mem_cons_of_mem x hy)
      cases json with
      | true =>
          obtain ⟨entries, s', hrun, hexpressions, hall, hleads'⟩ := ih hrest between
          refine ⟨⟨x, outcome⟩ :: entries, s', ?_, ?_, ?_, ?_⟩
          · rw [evaluateAll, Run.run_bind hattempt]
            show (evaluateAll env settings true rest >>= _).run between = _
            rw [Run.run_bind hrun]
            rfl
          · rw [List.map_cons, hexpressions]
          · exact List.forall_mem_cons.2 ⟨halone, hall⟩
          · exact hleads.trans hleads'
      | false =>
          obtain ⟨printed, hprint, hleads''⟩ := print_leads env between
            (isPresentable_of_isAlone h List.mem_cons_self halone)
          obtain ⟨entries, s', hrun, hexpressions, hall, hleads'⟩ := ih hrest printed
          refine ⟨⟨x, outcome⟩ :: entries, s', ?_, ?_, ?_, ?_⟩
          · rw [evaluateAll, Run.run_bind hattempt]
            show (BatchEntry.print env settings ⟨x, outcome⟩ >>= _).run between = _
            rw [Run.run_bind hprint]
            show (evaluateAll env settings false rest >>= _).run printed = _
            rw [Run.run_bind hrun]
            rfl
          · rw [List.map_cons, hexpressions]
          · exact List.forall_mem_cons.2 ⟨halone, hall⟩
          · -- the line or the report of the expression comes before those of the others
            have hvalues := filterMap_cons_toList (·.valueLine? env settings) ⟨x, outcome⟩ entries
            have hreports := filterMap_cons_toList BatchEntry.faultReport? ⟨x, outcome⟩ entries
            have htogether := hleads.trans (hleads''.trans hleads')
            rw [valueLines, faultReports, if_neg Bool.false_ne_true, if_neg Bool.false_ne_true,
              hvalues, hreports, String.join_append]
            rw [String.empty_append] at htogether
            exact htogether

/-! ## Whole batches -/

/-- The event at the start of a batch. -/
def started (ts : String) (count : Nat) : Event :=
  .make ts .info .batchStarted "Evaluating arguments" [("count", .int count)]

/-- The event at the end of a batch. -/
def completed (ts : String) (count failed : Nat) : Event :=
  .make ts .info .batchCompleted s!"{count - failed}/{count} evaluated"
    [("count", .int count), ("failed", .int failed)]

/-- The events of a batch, in order. -/
def events (ts : String) (entries : List BatchEntry) : List Event :=
  started ts entries.length ::
    (entries.map (·.event ts) ++ [completed ts entries.length (failures entries)])

/-- What a batch prints: all entries as JSON, or a line for each value. -/
def output (env : Environment) (settings : Settings) (json : Bool) (entries : List BatchEntry) :
    String :=
  if json then Json.renderIndented (datum entries) ++ "\n"
  else String.join (entries.filterMap (·.valueLine? env settings))

/-- JSON has no changes of style. -/
theorem plainText_renderIndented (d : Datum) :
    Text.plainText (Json.renderIndented d) = Json.renderIndented d := by
  rw [Text.plainText, Text.plain_eq_self]
  · exact String.ofList_toList
  · intro hescape
    rw [Json.renderIndented, String.toList_ofList] at hescape
    rcases Json.isPlainOrFeed_indentedAt d 0 _ hescape with hplain | hfeed
    · exact absurd hplain (by decide)
    · exact absurd hfeed (by decide)

/-- The events of the entries are logged between the event at the start and the one at the end. -/
theorem leads_events (env : Environment) (s : Session) {between : Session} {n : Nat}
    {entries : List BatchEntry} {out : String} {err : List String} (hn : entries.length = n)
    (h : (s.log env (started env.now n)).Leads env between (entries.map (·.event env.now)) out
      err) :
    s.Leads env (between.log env (completed env.now n (failures entries)))
      (events env.now entries) out err := by
  have htogether := (Session.leads_log env s (started env.now n)).trans
    (h.trans (Session.leads_log env between (completed env.now n (failures entries))))
  rw [String.empty_append, String.append_empty, List.nil_append, List.append_nil] at htogether
  rw [events, hn]
  exact htogether

/-- A batch logs its events, and prints and reports its entries. -/
theorem run_leads (env : Environment) {json : Bool} {expressions : List String}
    (h : ArePresentable env settings json expressions) (s : Session) :
    ∃ (entries : List BatchEntry) (s' : Session),
      (Batch.run env settings expressions json).run s =
        (.ok (if failures entries = 0 then 0 else 1), s') ∧
      entries.map (·.expression) = expressions ∧ (∀ e ∈ entries, e.IsAlone settings) ∧
      s.Leads env s' (events env.now entries) (output env settings json entries)
        (faultReports json entries) := by
  obtain ⟨entries, between, hrun, hexpressions, halone, hall⟩ :=
    evaluateAll_leads env h (s.log env (started env.now expressions.length))
  have hlength : entries.length = expressions.length := by
    rw [← hexpressions, List.length_map]
  have hevents := leads_events env s hlength hall
  have hstart : (Run.log env .info .batchStarted "Evaluating arguments"
      [("count", .int expressions.length)]).run s =
      (.ok (), s.log env (started env.now expressions.length)) := rfl
  have hend : (Run.log env .info .batchCompleted
      s!"{expressions.length - failures entries}/{expressions.length} evaluated"
      [("count", .int expressions.length), ("failed", .int (failures entries))]).run between =
      (.ok (), between.log env (completed env.now expressions.length (failures entries))) := rfl
  cases json with
  | false =>
      refine ⟨entries, _, ?_, hexpressions, halone, hevents⟩
      rw [Batch.run, Run.run_bind hstart]
      dsimp only
      rw [Run.run_bind hrun, Run.run_bind hend]
      rfl
  | true =>
      have hprinted := hevents.trans (Session.leads_print env _
        (Json.renderIndented (datum entries) ++ "\n"))
      rw [List.append_nil, List.append_nil] at hprinted
      refine ⟨entries, _, ?_, hexpressions, halone, hprinted⟩
      rw [Batch.run, Run.run_bind hstart]
      dsimp only
      rw [Run.run_bind hrun, Run.run_bind hend]
      have htell (s : Session) : (Run.tell (Json.renderIndented (datum entries))).run s =
          (.ok (), s.print (Json.renderIndented (datum entries) ++ "\n")) := by
        show (Except.ok (), s.print (Text.plainText _ ++ "\n")) = _
        rw [plainText_renderIndented]
      show (Run.tell (Json.renderIndented (datum entries)) >>= _).run _ = _
      rw [Run.run_bind (htell _)]
      rfl

/-! ## What a batch leaves behind -/

/-- The values and the diagnostics of entries are counted apart. -/
theorem length_faultReports (entries : List BatchEntry) :
    (entries.filterMap BatchEntry.faultReport?).length = failures entries := by
  induction entries with
  | nil => rfl
  | cons e rest ih =>
      rw [filterMap_cons_toList, List.length_append, ih, failures, failures, List.countP_cons]
      cases houtcome : e.outcome with
      | ok value => simp [BatchEntry.faultReport?, BatchEntry.isFailed, houtcome]
      | error d => simp [BatchEntry.faultReport?, BatchEntry.isFailed, houtcome, Nat.add_comm]

/-- Each entry has a line for its value or counts as failed. -/
theorem length_valueLines {entries : List BatchEntry}
    (h : ∀ e ∈ entries, e.IsPresentable env settings) :
    (entries.filterMap (·.valueLine? env settings)).length + failures entries = entries.length := by
  induction entries with
  | nil => rfl
  | cons e rest ih =>
      have hrest := ih fun e' he' => h e' (List.mem_cons_of_mem e he')
      have hfirst : (e.valueLine? env settings).toList.length + (if e.isFailed then 1 else 0) =
          1 := by
        cases houtcome : e.outcome with
        | ok value =>
            obtain ⟨text, htext⟩ := h e List.mem_cons_self value houtcome
            simp [BatchEntry.valueLine?, BatchEntry.isFailed, houtcome, htext, Except.toOption]
        | error d => simp [BatchEntry.valueLine?, BatchEntry.isFailed, houtcome]
      rw [filterMap_cons_toList, List.length_append, failures, List.countP_cons,
        List.length_cons]
      rw [failures] at hrest
      omega

theorem level_events_ne_warning (ts : String) (entries : List BatchEntry) :
    ∀ e ∈ events ts entries, e.level ≠ .warning := by
  intro e he
  rcases List.mem_cons.1 he with rfl | he
  · exact fun h => by cases h
  · rcases List.mem_append.1 he with he | he
    · obtain ⟨entry, -, rfl⟩ := List.mem_map.1 he
      exact entry.event_level_ne_warning ts
    · obtain rfl := List.mem_singleton.1 he
      exact fun h => by cases h

theorem isLogged_events {entries : List BatchEntry}
    (hcount : entries.length < Number.leastUnwritable)
    (h : ∀ e ∈ entries, e.IsAlone settings ∧
      e.expression.length + 1 < Number.leastUnwritable) (ts : String) :
    ∀ e ∈ events ts entries, Sink.IsLogged e := by
  have hint {n : Nat} (hn : n ≤ entries.length) : Number.isWritable (.int n) = true :=
    Number.isWritable_int_iff.2 (Nat.lt_of_le_of_lt hn hcount)
  have hfailed : failures entries ≤ entries.length := List.countP_le_length
  intro e he
  rcases List.mem_cons.1 he with rfl | he
  · apply Event.isLogged_make
    · exact ⟨(by decide : ["count"].Nodup), trivial, trivial⟩
    · simp only [Datum.areWritableFields, Datum.isWritable, Datum.int, hint (Nat.le_refl _),
        Bool.and_self]
    · exact (by decide : 2 ≤ Json.deepest)
  · rcases List.mem_append.1 he with he | he
    · obtain ⟨entry, hentry, rfl⟩ := List.mem_map.1 he
      obtain ⟨halone, hlength⟩ := h entry hentry
      exact entry.isLogged_event halone hlength ts
    · obtain rfl := List.mem_singleton.1 he
      apply Event.isLogged_make
      · exact ⟨(by decide : ["count", "failed"].Nodup), trivial, trivial, trivial⟩
      · simp only [Datum.areWritableFields, Datum.isWritable, Datum.int, hint (Nat.le_refl _),
          hint hfailed, Bool.and_self]
      · exact (by decide : 2 ≤ Json.deepest)

set_option maxRecDepth 10000 in
theorem evaluate_two :
    evaluate Vocabulary.standard.domain .standard ['2'] = .ok (.number (.float 2)) := by
  have htranscript : Transcript.ofText ['2'] =
      ⟨[⟨⟨⟨.number, "2"⟩, ⟨1, 1⟩⟩, Passed.start.passAll ['2']⟩],
        .ok ⟨⟨⟨.endOfInput, ""⟩, ⟨1, 2⟩⟩, Passed.start.passAll ['2']⟩⟩ := by
    show Transcript.ofResults (Cursor.ofText ['2']).results = _
    rw [Cursor.results_of_token rfl (by decide), Cursor.results_of_endOfInput rfl rfl]
    rfl
  rw [evaluate, htranscript]
  rfl

/-- A run without input in an empty tree of files. -/
def bareEnvironment : Environment := ⟨[], [], false, "2024-01-02T03:04:05Z", 1000, .locked, .bare⟩

theorem render_two :
    Template.render Settings.standard.template (.number (.float 2)) bareEnvironment.host =
      .ok "2" := by
  have hrender : (Template.render Settings.standard.template (.number (.float 2))
      bareEnvironment.host).toOption = some "2" := by decide +kernel
  cases h : Template.render Settings.standard.template (.number (.float 2))
      bareEnvironment.host with
  | ok text =>
      rw [h] at hrender
      rw [Option.some.inj hrender]
  | error cause =>
      rw [h] at hrender
      cases hrender

/-- A session of such a run whose log is to be made. -/
def bareSession : Session := { Session.start [] with journal := Journal.logJournal }

end Batch

end Calculator
