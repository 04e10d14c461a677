import Calculator.Command.Session
import Calculator.Proofs.Event.Observation

/-!
# Steps of sessions

What a part of a run does to its session is told by the events that it logs and by the texts that it
adds to the two outputs (`Session.Leads`); parts that follow each other add up (`Leads.trans`). The
error output may have warnings of the log between the reports (`Reported`), but none if there is no
log or the log works.
-/

set_option autoImplicit false

namespace Calculator

/-! ## The error output -/

/-- A text goes on with reports in their order, and between them at most with warnings of the
log. -/
inductive Reported : String → List String → String → Prop where
  | done {err} : Reported err [] err
  | warning {err err' reports} (text : String) :
      Reported (err ++ Session.warningLine text) reports err' → Reported err reports err'
  | report {err err' reports} (r : String) :
      Reported (err ++ r) reports err' → Reported err (r :: reports) err'

namespace Reported

theorem trans {err err' err'' : String} {reports reports' : List String}
    (h : Reported err reports err') (h' : Reported err' reports' err'') :
    Reported err (reports ++ reports') err'' := by
  induction h with
  | done => exact h'
  | warning text _ ih => exact .warning text (ih h')
  | report r _ ih => exact .report r (ih h')

theorem join_warnings (texts : List String) (err : String) :
    Reported err [] (err ++ String.join (texts.map Session.warningLine)) := by
  induction texts generalizing err with
  | nil =>
      rw [List.map_nil, String.join_nil, String.append_empty]
      exact .done
  | cons text rest ih =>
      rw [List.map_cons, String.join_cons, ← String.append_assoc]
      exact .warning text (ih _)

end Reported

namespace Session

variable {env : Environment} {s s' s'' : Session}

/-! ## Steps -/

/-- A session with texts added to both outputs. -/
def telling (s : Session) (out : String) (reports : List String) : Session :=
  { s with out := s.out ++ out, err := s.err ++ String.join reports }

/-- A part of a run leads from one session to another. It logs events, given as they are logged, and
adds a text to the output and reports to the error output. -/
structure Leads (env : Environment) (s s' : Session) (events : List Event) (out : String)
    (reports : List String) : Prop where
  output : s'.out = s.out ++ out
  errors : Reported s.err reports s'.err
  /-- Without a log nothing else happens. -/
  silent : s.journal.sink = none → s' = s.telling out reports
  /-- A working log gets the lines of the events, if they fit into lines, and nothing else
  happens. -/
  logged : ∀ sink : Sink, s.journal.sink = some sink → sink.IsWorking s.files env.directory →
    (∀ e ∈ events, Sink.IsLogged e) →
    ∃ files', s' = { s.telling out reports with files := files' } ∧
      sink.Logged s.files files' env.directory events

theorem telling_nil (s : Session) : s.telling "" [] = s := by
  simp [telling]

theorem telling_telling (s : Session) (out out' : String) (reports reports' : List String) :
    (s.telling out reports).telling out' reports' =
      s.telling (out ++ out') (reports ++ reports') := by
  simp only [telling, String.join_append, String.append_assoc]

theorem Leads.refl (env : Environment) (s : Session) : s.Leads env s [] "" [] where
  output := by rw [String.append_empty]
  errors := .done
  silent _ := s.telling_nil.symm
  logged sink _ hworks _ := by
    refine ⟨s.files, ?_, .refl hworks⟩
    rw [telling_nil]

/-- **Parts that follow each other add up.** -/
theorem Leads.trans {events events' : List Event} {out out' : String}
    {reports reports' : List String} (h : s.Leads env s' events out reports)
    (h' : s'.Leads env s'' events' out' reports') :
    s.Leads env s'' (events ++ events') (out ++ out') (reports ++ reports') where
  output := by rw [h'.output, h.output, String.append_assoc]
  errors := h.errors.trans h'.errors
  silent hsink := by
    have hfirst := h.silent hsink
    have hsecond := h'.silent (by rw [hfirst]; exact hsink)
    rw [hsecond, hfirst, telling_telling]
  logged sink hsink hworks hfit := by
    obtain ⟨hevents, hevents'⟩ := List.forall_mem_append.1 hfit
    obtain ⟨between, hfirst, hlogged⟩ := h.logged sink hsink hworks hevents
    -- the log works on, so it gets the events of the second part as well
    have hjournal : s'.journal = s.journal := by rw [hfirst]; rfl
    have hfiles : s'.files = between := by rw [hfirst]
    obtain ⟨files', hsecond, hlogged'⟩ := h'.logged sink (by rw [hjournal]; exact hsink)
      (by rw [hfiles]; exact hlogged.isWorking) hevents'
    rw [hfiles] at hlogged'
    refine ⟨files', ?_, hlogged.trans hlogged'⟩
    rw [hsecond, hfirst, ← telling_telling]
    rfl

theorem leads_print (env : Environment) (s : Session) (text : String) :
    s.Leads env (s.print text) [] text [] where
  output := rfl
  errors := .done
  silent _ := by simp [telling, print]
  logged sink _ hworks _ := by
    refine ⟨s.files, ?_, .refl hworks⟩
    simp [telling, print]

theorem leads_report (env : Environment) (s : Session) (text : String) :
    s.Leads env (s.report text) [] "" [text] where
  output := by simp [report]
  errors := .report text .done
  silent _ := by simp [telling, report]
  logged sink _ hworks _ := by
    refine ⟨s.files, ?_, .refl hworks⟩
    simp [telling, report]

/-! ## Events -/

/-- A journal that has not changed has no news. -/
theorem adopt_journal (s : Session) (files : Files) :
    s.adopt s.journal files = { s with files } := by
  simp [adopt, report]

/-- Emitting an event logs it as it is prepared. -/
theorem leads_emit {e : Event} {journal : Journal} {files : Files}
    (h : s.journal.emit env.directory env.clock s.files e = (journal, files)) :
    s.Leads env (s.adopt journal files) [e.prepared] "" [] where
  output := by simp [adopt, report]
  errors := .join_warnings _ _
  silent hsink := by
    rw [Journal.emit_of_none hsink] at h
    cases h
    rw [adopt_journal, telling_nil]
  logged sink hsink hworks hfit := by
    obtain ⟨files', hemit, hlogged⟩ := Journal.emit_of_isWorking env.clock hsink hworks
      (hfit _ List.mem_cons_self)
    rw [hemit] at h
    cases h
    refine ⟨files, ?_, hlogged⟩
    rw [adopt_journal, telling_nil]

theorem leads_log (env : Environment) (s : Session) (e : Event) :
    s.Leads env (s.log env e) [e.prepared] "" [] :=
  leads_emit rfl

/-- An evaluation gives its outcome, and logs it if it is no failure of the source. -/
theorem leads_evaluate {settings : Settings} {label : String} {source : Supply} {e : Event}
    (h : evaluationEvent env.now label
      (evaluateSupply Vocabulary.standard.domain settings.depth source) = some e) :
    (s.evaluate env settings label source).1 =
        evaluateSupply Vocabulary.standard.domain settings.depth source ∧
      s.Leads env (s.evaluate env settings label source).2 [e.prepared] "" [] := by
  unfold evaluate
  rw [Journal.evaluate_of_event h]
  exact ⟨rfl, leads_emit rfl⟩

end Session

/-! ## Runs -/

namespace Run

variable {α β : Type} {s s' : Session}

/-- A run that goes on from the result of its first part. -/
theorem run_bind {x : Run α} {f : α → Run β} {a : α} (h : x.run s = (.ok a, s')) :
    (x >>= f).run s = (f a).run s' := by
  have hbind : (x >>= f).run s = ExceptT.bindCont f (x.run s).1 (x.run s).2 := rfl
  rw [hbind, h]
  rfl

/-- A run whose first part stops goes no further. -/
theorem run_bind_error {x : Run α} {f : α → Run β} {stop : Stop}
    (h : x.run s = (.error stop, s')) : (x >>= f).run s = (.error stop, s') := by
  have hbind : (x >>= f).run s = ExceptT.bindCont f (x.run s).1 (x.run s).2 := rfl
  rw [hbind, h]
  rfl

theorem present_of_ok {env : Environment} {settings : Settings} {value : Datum} {text : String}
    (h : Template.render settings.template value env.host = .ok text) (s : Session) :
    (present env settings value).run s = (.ok text, s) := by
  rw [present, h]
  rfl

theorem present_of_error {env : Environment} {settings : Settings} {value : Datum}
    {cause : Failure} (h : Template.render settings.template value env.host = .error cause)
    (s : Session) : (present env settings value).run s = (.error (.failed cause), s) := by
  rw [present, h]
  rfl

end Run

end Calculator
