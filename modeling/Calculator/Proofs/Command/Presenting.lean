import Calculator.Proofs.Command.Dialogue
import Calculator.Proofs.Template.Rendering
import Mathlib.Data.List.TakeWhile

/-!
# Values by the template of the settings

A value that has been computed is printed by the template of the settings, unless the template stops
at it. Then the whole run ends with the failure of the template (`stop?`), and neither this value
nor anything behind it is printed. So a batch and a dialogue have entries for their expressions up
to the first at whose value the template stops (`Batch.run_presents`, `Dialogue.run_presents`).
-/

set_option autoImplicit false

namespace Calculator

variable {env : Environment} {settings : Settings} {s s' : Session} {cause : Failure}
  {source : List Char} {sources : List (List Char)}

/-! ## Where the template stops -/

/-- The failure of the template of the settings at the value of a source. -/
def stop? (env : Environment) (settings : Settings) (source : List Char) : Option Failure :=
  match evaluate Vocabulary.standard.domain settings.depth source with
  | .ok value =>
    match Template.render settings.template value env.host with
    | .ok _ => none
    | .error cause => some cause
  | .error _ => none

/-- The first failure of the template at the values of sources. -/
def firstStop? (env : Environment) (settings : Settings) (sources : List (List Char)) :
    Option Failure :=
  sources.findSome? (stop? env settings)

/-- The sources before the first at whose value the template stops. -/
def presented (env : Environment) (settings : Settings) (sources : List (List Char)) :
    List (List Char) :=
  sources.takeWhile fun source => (stop? env settings source).isNone

theorem exists_of_stop?_eq_some (h : stop? env settings source = some cause) :
    ∃ value, evaluate Vocabulary.standard.domain settings.depth source = .ok value ∧
      Template.render settings.template value env.host = .error cause := by
  unfold stop? at h
  split at h
  · rename_i value hvalue
    split at h
    · cases h
    · rename_i cause' hrender
      cases h
      exact ⟨value, hvalue, hrender⟩
  · cases h

/-- A source without a value has nothing at which the template could stop. -/
theorem exists_of_stop?_eq_none {value : Datum} (h : stop? env settings source = none)
    (hvalue : evaluate Vocabulary.standard.domain settings.depth source = .ok value) :
    ∃ text, Template.render settings.template value env.host = .ok text := by
  unfold stop? at h
  rw [hvalue] at h
  dsimp only at h
  split at h
  · rename_i text hrender
    exact ⟨text, hrender⟩
  · cases h

/-- **The failure is that of the template at the value**, which is a double. -/
theorem stop?_eq_some_iff : stop? env settings source = some cause ↔
    ∃ value, evaluate Vocabulary.standard.domain settings.depth source = .ok value ∧
      Template.StopsAt env.host settings.template value cause := by
  constructor
  · intro h
    obtain ⟨value, hvalue, hrender⟩ := exists_of_stop?_eq_some h
    obtain ⟨x, rfl, -⟩ := evaluate_standard_isDouble hvalue
    exact ⟨_, hvalue, Template.render_eq_error_iff.1 hrender⟩
  · rintro ⟨value, hvalue, hstops⟩
    obtain ⟨x, rfl, -⟩ := evaluate_standard_isDouble hvalue
    have hrender : Template.render settings.template (double x) env.host = .error cause :=
      Template.render_eq_error_iff.2 hstops
    rw [stop?, hvalue]
    dsimp only
    rw [hrender]

theorem firstStop?_cons_of_none (h : stop? env settings source = none) :
    firstStop? env settings (source :: sources) = firstStop? env settings sources := by
  rw [firstStop?, List.findSome?_cons, h, firstStop?]

theorem firstStop?_cons_of_some (h : stop? env settings source = some cause) :
    firstStop? env settings (source :: sources) = some cause := by
  rw [firstStop?, List.findSome?_cons, h]

/-- **All sources are presented exactly if the template stops at none of their values.** -/
theorem presented_eq_self_iff :
    presented env settings sources = sources ↔ firstStop? env settings sources = none := by
  rw [presented, List.takeWhile_eq_self_iff, firstStop?, List.findSome?_eq_none_iff]
  exact forall₂_congr fun source _ => Option.isNone_iff_eq_none

/-- The standard template stops at no value. -/
theorem stop?_of_standard (h : settings.template = Settings.standard.template)
    (source : List Char) : stop? env settings source = none := by
  cases hstop : stop? env settings source with
  | none => rfl
  | some cause =>
      obtain ⟨value, hvalue, hrender⟩ := exists_of_stop?_eq_some hstop
      obtain ⟨x, rfl, -⟩ := evaluate_standard_isDouble hvalue
      obtain ⟨text, hsuits⟩ := Template.exists_suits_general env.host x
      have htext : Template.render Settings.standard.template (double x) env.host = .ok text :=
        Template.render_eq_ok_iff.2 (.inl hsuits)
      rw [h, htext] at hrender
      cases hrender

/-! ## Steps that present a value -/

/-- The result of a part of a run, or the failure that ends the run before. -/
def endedBy {α : Type} (result : Except Stop α) : Option Failure → Except Stop α
  | none => result
  | some cause => .error (.failed cause)

/-- An expression at whose value the template stops is evaluated, and nothing is printed. -/
theorem Run.attempt_stops (env : Environment) {expression : String}
    (h : stop? env settings expression.toList = some cause) (s : Session) :
    ∃ (value : Datum) (s' : Session),
      (Run.attempt env settings expression (.ofText expression.toList)).run s =
        (.ok (.ok value), s') ∧
      Template.render settings.template value env.host = .error cause ∧
      s'.out = s.out ∧ Reported s.err [] s'.err := by
  obtain ⟨value, hvalue, hrender⟩ := exists_of_stop?_eq_some h
  obtain ⟨outcome, s', hattempt, halone, hleads⟩ := Batch.attempt_leads env settings s expression
  -- the expression has the value that it has alone
  cases outcome with
  | ok value' =>
      cases hvalue.symm.trans halone
      refine ⟨value, s', hattempt, hrender, ?_, hleads.errors⟩
      rw [hleads.output, String.append_empty]
  | error d => cases hvalue.symm.trans halone

/-- **The value of a source is printed unless the template stops at it.** -/
theorem Call.runSource_presents {origin : Origin} {value : Datum}
    (h : evaluateSupply Vocabulary.standard.domain settings.depth (.ofBytes (origin.bytes env)) =
      .ok value) (s : Session) :
    ∃ s' : Session, s'.out = s.out ∧ (Call.runSource env settings origin).run s =
      match Template.render settings.template value env.host with
      | .ok text => (.ok 0, s'.print (Text.plainText text ++ "\n"))
      | .error cause => (.error (.failed cause), s') := by
  obtain ⟨e, hevent⟩ : ∃ e, evaluationEvent env.now origin.label
      (evaluateSupply Vocabulary.standard.domain settings.depth (.ofBytes (origin.bytes env))) =
      some e := by
    rw [h]
    exact ⟨_, rfl⟩
  obtain ⟨hsame, hleads⟩ := Session.leads_evaluate (s := s) hevent
  have houtcome : s.evaluate env settings origin.label (.ofBytes (origin.bytes env)) =
      ((Except.ok value : Except Diagnostic Datum).mapError .diagnosed,
        (s.evaluate env settings origin.label (.ofBytes (origin.bytes env))).2) :=
    Prod.ext (hsame.trans h) rfl
  have hattempt := Batch.attempt_run houtcome
  refine ⟨(s.evaluate env settings origin.label (.ofBytes (origin.bytes env))).2, ?_, ?_⟩
  · rw [hleads.output, String.append_empty]
  · rw [Call.runSource, Run.run_bind hattempt]
    cases hrender : Template.render settings.template value env.host with
    | ok text => exact Run.run_bind (Run.present_of_ok hrender _)
    | error cause => exact Run.run_bind_error (Run.present_of_error hrender _)

/-! ## Entries up to a stop -/

/-- Entries for sources, up to the first at whose value the template stops. -/
structure Entered (env : Environment) (settings : Settings) (sources : List (List Char))
    (entries : List BatchEntry) : Prop where
  sources_eq : entries.map (·.expression.toList) = presented env settings sources
  /-- Each has the outcome that its source has alone. -/
  alone : ∀ e ∈ entries, e.IsAlone settings
  /-- Each value can be printed. -/
  presentable : ∀ e ∈ entries, e.IsPresentable env settings

namespace Entered

variable {entries : List BatchEntry} {e : BatchEntry}

theorem nil (env : Environment) (settings : Settings) : Entered env settings [] [] where
  sources_eq := rfl
  alone := List.forall_mem_nil _
  presentable := List.forall_mem_nil _

theorem stop (h : stop? env settings source = some cause) (sources : List (List Char)) :
    Entered env settings (source :: sources) [] where
  sources_eq := by simp [presented, h]
  alone := List.forall_mem_nil _
  presentable := List.forall_mem_nil _

theorem isPresentable (h : stop? env settings e.expression.toList = none)
    (halone : e.IsAlone settings) : e.IsPresentable env settings := by
  intro value hvalue
  apply exists_of_stop?_eq_none h
  rw [halone, hvalue]
  rfl

theorem cons (h : stop? env settings e.expression.toList = none) (halone : e.IsAlone settings)
    (hrest : Entered env settings sources entries) :
    Entered env settings (e.expression.toList :: sources) (e :: entries) where
  sources_eq := by
    rw [List.map_cons, hrest.sources_eq]
    simp [presented, h]
  alone := List.forall_mem_cons.2 ⟨halone, hrest.alone⟩
  presentable := List.forall_mem_cons.2 ⟨isPresentable h halone, hrest.presentable⟩

end Entered

/-! ## Batches -/

namespace Batch

/-- **The expressions of a batch are printed in order up to the first at whose value the template
stops.** -/
theorem evaluateAll_presents (env : Environment) (settings : Settings) (expressions : List String)
    (s : Session) :
    ∃ (entries : List BatchEntry) (s' : Session),
      (evaluateAll env settings false expressions).run s =
        (endedBy (.ok entries) (firstStop? env settings (expressions.map String.toList)), s') ∧
      Entered env settings (expressions.map String.toList) entries ∧
      s'.out = s.out ++ String.join (entries.filterMap (·.valueLine? env settings)) ∧
      Reported s.err (entries.filterMap BatchEntry.faultReport?) s'.err := by
  induction expressions generalizing s with
  | nil => exact ⟨[], s, rfl, .nil env settings, by simp, .done⟩
  | cons x rest ih =>
      rw [List.map_cons, evaluateAll]
      -- the first expression ends the run, or it has an entry and the others follow
      cases hstop : stop? env settings x.toList with
      | some cause =>
          obtain ⟨value, s', hattempt, hrender, hout, herr⟩ := Run.attempt_stops env hstop s
          refine ⟨[], s', ?_, .stop hstop _, by simp [hout], herr⟩
          rw [Run.run_bind hattempt, firstStop?_cons_of_some hstop]
          have hprint : (BatchEntry.print env settings ⟨x, .ok value⟩).run s' =
              (.error (.failed cause), s') :=
            Run.run_bind_error (Run.present_of_error hrender s')
          exact Run.run_bind_error hprint
      | none =>
          obtain ⟨outcome, between, hattempt, halone, hleads⟩ := attempt_leads env settings s x
          have hpresentable := Entered.isPresentable (e := ⟨x, outcome⟩) hstop halone
          obtain ⟨printed, hprint, hleads'⟩ := print_leads env between hpresentable
          obtain ⟨entries, s', hrun, hentered, hout, herr⟩ := ih printed
          have hvalues := filterMap_cons_toList (·.valueLine? env settings) ⟨x, outcome⟩ entries
          have hreports := filterMap_cons_toList BatchEntry.faultReport? ⟨x, outcome⟩ entries
          have htogether := hleads.trans hleads'
          refine ⟨⟨x, outcome⟩ :: entries, s', ?_,
            .cons (e := ⟨x, outcome⟩) hstop halone hentered, ?_, ?_⟩
          · rw [Run.run_bind hattempt, firstStop?_cons_of_none hstop]
            show (BatchEntry.print env settings ⟨x, outcome⟩ >>= _).run between = _
            rw [Run.run_bind hprint]
            show (evaluateAll env settings false rest >>= _).run printed = _
            cases hfirst : firstStop? env settings (rest.map String.toList) with
            | none =>
                rw [hfirst] at hrun
                rw [Run.run_bind hrun]
                rfl
            | some cause =>
                rw [hfirst] at hrun
                exact Run.run_bind_error hrun
          · rw [hout, htogether.output, hvalues, String.join_append, String.empty_append,
              String.append_assoc]
          · rw [hreports]
            exact htogether.errors.trans herr

/-- **A batch ends with a status exactly if the template stops at none of its values.** Otherwise it
ends with the failure of the template, and the lines for the values before are printed. -/
theorem run_presents (env : Environment) (settings : Settings) (expressions : List String)
    (s : Session) :
    ∃ (entries : List BatchEntry) (s' : Session),
      (Batch.run env settings expressions false).run s =
        (endedBy (.ok (if failures entries = 0 then 0 else 1))
          (firstStop? env settings (expressions.map String.toList)), s') ∧
      Entered env settings (expressions.map String.toList) entries ∧
      s'.out = s.out ++ String.join (entries.filterMap (·.valueLine? env settings)) ∧
      Reported s.err (entries.filterMap BatchEntry.faultReport?) s'.err := by
  have hstart : (Run.log env .info .batchStarted "Evaluating arguments"
      [("count", .int expressions.length)]).run s =
      (.ok (), s.log env (started env.now expressions.length)) := rfl
  have hbegun := Session.leads_log env s (started env.now expressions.length)
  obtain ⟨entries, between, hrun, hentered, hout, herr⟩ :=
    evaluateAll_presents env settings expressions (s.log env (started env.now expressions.length))
  rw [hbegun.output, String.append_empty] at hout
  have herrors := hbegun.errors.trans herr
  rw [Batch.run, Run.run_bind hstart]
  dsimp only
  cases hfirst : firstStop? env settings (expressions.map String.toList) with
  | some cause =>
      rw [hfirst] at hrun
      exact ⟨entries, between, Run.run_bind_error hrun, hentered, hout, herrors⟩
  | none =>
      rw [hfirst] at hrun
      have hended := Session.leads_log env between
        (completed env.now expressions.length (failures entries))
      refine ⟨entries, between.log env (completed env.now expressions.length (failures entries)),
        ?_, hentered, ?_, ?_⟩
      · rw [Run.run_bind hrun]
        rfl
      · rw [hended.output, String.append_empty, hout]
      · rw [← List.append_nil (entries.filterMap _)]
        exact herrors.trans hended.errors

end Batch

/-! ## Prompts -/

/-- A text goes on with lines in their order, and between them at most with prompts, if someone
types. -/
inductive Prompted (env : Environment) : String → List String → String → Prop where
  | done {out} : Prompted env out [] out
  | prompt {out out' lines} : env.isInteractive = true →
      Prompted env (out ++ "> ") lines out' → Prompted env out lines out'
  | line {out out' lines} (l : String) :
      Prompted env (out ++ l) lines out' → Prompted env out (l :: lines) out'

namespace Prompted

variable {out out' out'' : String} {lines lines' : List String}

theorem trans (h : Prompted env out lines out') (h' : Prompted env out' lines' out'') :
    Prompted env out (lines ++ lines') out'' := by
  induction h with
  | done => exact h'
  | prompt htyped _ ih => exact .prompt htyped (ih h')
  | line l _ ih => exact .line l (ih h')

theorem join (env : Environment) (out : String) (lines : List String) :
    Prompted env out lines (out ++ String.join lines) := by
  induction lines generalizing out with
  | nil =>
      rw [String.join_nil, String.append_empty]
      exact .done
  | cons l lines ih =>
      rw [String.join_cons, ← String.append_assoc]
      exact .line l (ih _)

/-- Without someone who types there are no prompts. -/
theorem eq_join (hsilent : env.isInteractive = false) (h : Prompted env out lines out') :
    out' = out ++ String.join lines := by
  induction h with
  | done => rw [String.join_nil, String.append_empty]
  | prompt htyped _ _ =>
      rw [hsilent] at htyped
      cases htyped
  | line l _ ih => rw [ih, String.join_cons, String.append_assoc]

end Prompted

/-! ## Dialogues -/

namespace Dialogue

/-- Asking for a line prints a prompt at most. -/
theorem prompt_prompted (env : Environment) (s : Session) :
    ∃ s' : Session, (prompt env).run s = (.ok (), s') ∧ Prompted env s.out [] s'.out ∧
      s'.err = s.err := by
  cases htyped : env.isInteractive with
  | false => exact ⟨s, prompt_run htyped s, .done, rfl⟩
  | true =>
      refine ⟨s.print "> ", ?_, .prompt htyped .done, rfl⟩
      rw [prompt, htyped]
      rfl

/-- **An expression is answered unless the template stops at its value.** -/
theorem answer_presents (env : Environment) (settings : Settings) (s : Session)
    (source : List Char) :
    match stop? env settings source with
    | some cause => ∃ s', (answer env settings source).run s = (.error (.failed cause), s') ∧
        s'.out = s.out ∧ Reported s.err [] s'.err
    | none => ∃ e s', (answer env settings source).run s = (.ok (), s') ∧
        e.expression = String.ofList source ∧ e.IsAlone settings ∧
        Prompted env s.out (valueLine? env settings e).toList s'.out ∧
        Reported s.err (faultReport? e).toList s'.err := by
  have hchars : (String.ofList source).toList = source := String.toList_ofList
  cases hstop : stop? env settings source with
  | some cause =>
      rw [← hchars] at hstop
      obtain ⟨value, s', hattempt, hrender, hout, herr⟩ := Run.attempt_stops env hstop s
      rw [hchars] at hattempt
      refine ⟨s', ?_, hout, herr⟩
      rw [answer, Run.run_bind hattempt]
      exact Run.run_bind_error (Run.present_of_error hrender s')
  | none =>
      have hpresentable : ArePresentable env settings [source] :=
        List.forall_mem_singleton.2 fun value => exists_of_stop?_eq_none hstop
      obtain ⟨e, s', hanswer, hexpression, halone, hleads⟩ := answer_leads env s hpresentable
      refine ⟨e, s', hanswer, hexpression, halone, ?_, hleads.errors⟩
      rw [hleads.output]
      exact .join env _ _

/-- **The expressions on the lines before a farewell are answered in order up to the first at whose
value the template stops.** If it stops at none, what is at the end comes behind them, unless there
is a farewell. -/
theorem answerAll_presents (env : Environment) (settings : Settings) (atEnd : Run Unit)
    (lines : List (List Char)) (s : Session) :
    ∃ (entries : List BatchEntry) (s' : Session),
      (answerAll env settings atEnd lines).run s =
        (match firstStop? env settings (expressions lines) with
        | some cause => (.error (.failed cause), s')
        | none => if takesLeave lines then (.ok (), s') else atEnd.run s') ∧
      Entered env settings (expressions lines) entries ∧
      Prompted env s.out (entries.filterMap (valueLine? env settings)) s'.out ∧
      Reported s.err (entries.filterMap faultReport?) s'.err := by
  induction lines generalizing s with
  | nil =>
      obtain ⟨s', hprompt, hout, herr⟩ := prompt_prompted env s
      refine ⟨[], s', ?_, .nil env settings, hout, herr ▸ .done⟩
      rw [answerAll, Run.run_bind hprompt]
      rfl
  | cons line rest ih =>
      obtain ⟨asked, hprompt, hasked, herr⟩ := prompt_prompted env s
      rw [expressions_cons, takesLeave_cons, answerAll, Run.run_bind hprompt, step, ← herr]
      cases hline : Line.ofText line with
      | blank =>
          obtain ⟨entries, s', hrun, hentered, hout, herrors⟩ := ih asked
          exact ⟨entries, s', hrun, hentered, hasked.trans hout, herrors⟩
      | farewell => exact ⟨[], asked, rfl, .nil env settings, hasked, .done⟩
      | expression source =>
          dsimp only
          -- the line ends the run, or it is answered and the next lines follow
          have hanswered := answer_presents env settings asked source
          cases hstop : stop? env settings source with
          | some cause =>
              rw [hstop] at hanswered
              obtain ⟨s', hanswer, hout, herrors⟩ := hanswered
              refine ⟨[], s', ?_, .stop hstop _, hout ▸ hasked, herrors⟩
              rw [firstStop?_cons_of_some hstop, bind_assoc]
              exact Run.run_bind_error hanswer
          | none =>
              rw [hstop] at hanswered
              obtain ⟨e, between, hanswer, hexpression, halone, hvalue, hreport⟩ := hanswered
              obtain ⟨entries, s', hrun, hentered, hout, herrors⟩ := ih between
              have hchars : e.expression.toList = source := by
                rw [hexpression, String.toList_ofList]
              have hvalues := filterMap_cons_toList (valueLine? env settings) e entries
              have hreports := filterMap_cons_toList faultReport? e entries
              subst hchars
              refine ⟨e :: entries, s', ?_, .cons hstop halone hentered, ?_, ?_⟩
              · rw [firstStop?_cons_of_none hstop, bind_assoc, Run.run_bind hanswer]
                exact hrun
              · rw [hvalues]
                exact hasked.trans (hvalue.trans hout)
              · rw [hreports]
                exact hreport.trans herrors

/-- **A dialogue goes through its lines exactly if the template stops at none of their values.**
Otherwise it ends with the failure of the template, with the answers before printed. -/
theorem run_presents (env : Environment) (settings : Settings) (s : Session) :
    ∃ (entries : List BatchEntry) (s' : Session) (result : Except Stop Nat),
      (Dialogue.run env settings).run s = (result, s') ∧
      (match firstStop? env settings (expressions (linesOf env.input)) with
      | some cause => result = .error (.failed cause)
      | none => Ends env.input result) ∧
      Entered env settings (expressions (linesOf env.input)) entries ∧
      Prompted env s.out (entries.filterMap (valueLine? env settings)) s'.out ∧
      Reported s.err (entries.filterMap faultReport?) s'.err := by
  have hstart : (start env).run s = (.ok (), s.log env (started env.now)) := rfl
  have hbegun := Session.leads_log env s (started env.now)
  obtain ⟨entries, s', hrun, hentered, hout, herr⟩ := answerAll_presents env settings
    (endOf (.ofBytes env.input)) (linesOf env.input) (s.log env (started env.now))
  rw [hbegun.output, String.append_empty] at hout
  have herrors := hbegun.errors.trans herr
  rw [Dialogue.run, Run.run_bind hstart]
  cases hfirst : firstStop? env settings (expressions (linesOf env.input)) with
  | some cause =>
      rw [hfirst] at hrun
      exact ⟨entries, s', _, Run.run_bind_error hrun, rfl, hentered, hout, herrors⟩
  | none =>
      rw [hfirst] at hrun
      obtain ⟨result, hresult, hends⟩ := exists_ends hrun
      exact ⟨entries, s', result, hresult, hends, hentered, hout, herrors⟩

end Dialogue

/-! ## Calls -/

namespace Call

/-- What comes of the values that a call computes, by the template of the settings. -/
structure Presents (env : Environment) (settings : Settings) (s : Session) : Prop where
  /-- Rendering a double fails exactly if the template stops. -/
  fails : ∀ x cause,
    Template.render settings.template (.number (.float x)) env.host = .error cause ↔
      Template.StopsAt env.host settings.template (.number (.float x)) cause
  /-- It stops for an argument, a part or room that there is not, and for nothing else, unless the
  host leads a field astray. -/
  causes : ∀ x cause, Template.StopsAt env.host settings.template (.number (.float x)) cause →
    (cause.kind = .key ∨ cause.kind = .attribute ∨ cause.kind = .index ∨ cause = .noMemory) ∨
      Template.StraysAt env.host settings.template (.number (.float x))
  /-- A host that attaches no more than texts and kinds, or nothing, leads no field astray. -/
  near : env.host.StaysNear →
    ∀ x, ¬ Template.StraysAt env.host settings.template (.number (.float x))
  /-- Otherwise there is a text: that of the template, or if it does not suit, that which shows the
  double. -/
  texts : ∀ x text, Template.render settings.template (.number (.float x)) env.host = .ok text ↔
    Template.Suits env.host settings.template (.number (.float x)) text ∨
      Template.IsUnsuitable env.host settings.template (.number (.float x)) ∧
        text = (Datum.number (.float x)).shown
  /-- All values are doubles. -/
  doubles : ∀ source value,
    evaluateSupply Vocabulary.standard.domain settings.depth source = .ok value →
      ∃ x, value = .number (.float x)
  /-- The value of a source is printed unless the template stops at it. -/
  source : ∀ origin value,
    evaluateSupply Vocabulary.standard.domain settings.depth (.ofBytes (origin.bytes env)) =
      .ok value →
    ∃ s' : Session, s'.out = s.out ∧ (perform env settings (.source origin)).run s =
      match Template.render settings.template value env.host with
      | .ok text => (.ok 0, s'.print (Text.plainText text ++ "\n"))
      | .error cause => (.error (.failed cause), s')
  /-- An expression ends a run if the template stops at its value. -/
  stops : ∀ source cause, stop? env settings source = some cause ↔
    ∃ value, evaluate Vocabulary.standard.domain settings.depth source = .ok value ∧
      Template.StopsAt env.host settings.template value cause
  /-- All expressions have entries exactly if none of them ends the run. -/
  complete : ∀ sources,
    presented env settings sources = sources ↔ firstStop? env settings sources = none
  /-- The template that holds unless another one is set ends no run. -/
  general : settings.template = Settings.standard.template →
    ∀ source, stop? env settings source = none
  /-- A batch prints its entries, and the first expression that ends it has none. -/
  batch : ∀ expressions, ∃ (entries : List BatchEntry) (s' : Session),
    (perform env settings (.batch expressions false)).run s =
      (endedBy (.ok (if Batch.failures entries = 0 then 0 else 1))
        (firstStop? env settings (expressions.map String.toList)), s') ∧
    Entered env settings (expressions.map String.toList) entries ∧
    s'.out = s.out ++ String.join (entries.filterMap (·.valueLine? env settings)) ∧
    Reported s.err (entries.filterMap BatchEntry.faultReport?) s'.err
  /-- As JSON a batch is printed whatever the template is. -/
  json : ∀ expressions, ∃ (entries : List BatchEntry) (s' : Session),
    (perform env settings (.batch expressions true)).run s =
      (.ok (if Batch.failures entries = 0 then 0 else 1), s') ∧
    entries.map (·.expression) = expressions ∧ (∀ e ∈ entries, e.IsAlone settings) ∧
    s'.out = s.out ++ (Json.renderIndented (Batch.datum entries) ++ "\n")
  /-- A dialogue prints the answers to its lines, and the first expression that ends it has none. -/
  dialogue : ∃ (entries : List BatchEntry) (s' : Session) (result : Except Stop Nat),
    (perform env settings .dialogue).run s = (result, s') ∧
    (match firstStop? env settings (Dialogue.expressions (Dialogue.linesOf env.input)) with
    | some cause => result = .error (.failed cause)
    | none => Dialogue.Ends env.input result) ∧
    Entered env settings (Dialogue.expressions (Dialogue.linesOf env.input)) entries ∧
    Prompted env s.out (entries.filterMap (Dialogue.valueLine? env settings)) s'.out ∧
    (env.isInteractive = false →
      s'.out = s.out ++ String.join (entries.filterMap (Dialogue.valueLine? env settings))) ∧
    Reported s.err (entries.filterMap Dialogue.faultReport?) s'.err

/-- **Values are printed, and runs go on behind them, exactly as far as the template does not
stop.** -/
theorem perform_presents (env : Environment) (settings : Settings) (s : Session) :
    Presents env settings s where
  fails _ _ := Template.render_eq_error_iff
  causes _ _ := Template.kind_of_stops
  near hhost _ := Template.not_strays hhost
  texts _ _ := Template.render_eq_ok_iff
  doubles source value hvalue := by
    obtain ⟨x, rfl, -⟩ := evaluateSupply_standard_isDouble hvalue
    exact ⟨x, rfl⟩
  source _ _ hvalue := runSource_presents hvalue s
  stops _ _ := stop?_eq_some_iff
  complete _ := presented_eq_self_iff
  general := stop?_of_standard
  batch expressions := Batch.run_presents env settings expressions s
  json expressions := by
    have hpresentable : Batch.ArePresentable env settings true expressions := .inl rfl
    obtain ⟨entries, s', hrun, hexpressions, halone, hleads⟩ := Batch.run_leads env hpresentable s
    exact ⟨entries, s', hrun, hexpressions, halone, hleads.output⟩
  dialogue := by
    obtain ⟨entries, s', result, hrun, hresult, hentered, hout, herr⟩ :=
      Dialogue.run_presents env settings s
    exact ⟨entries, s', result, hrun, hresult, hentered, hout, fun hsilent => hout.eq_join hsilent,
      herr⟩

/-- A directory with a file of settings whose template asks for an argument with a name. -/
def namedFiles : Files :=
  [(["calceval.yaml"], .file [Text.Utf8.encode "number_format: '\x7bx\x7d'\n".toList])]

/-- How a call ends in this directory, with an expression as its input, and what it prints. -/
def runNamed (args : List String) : Finish × String :=
  let (finish, s) := run (Dialogue.fedEnvironment (Text.Utf8.encode ['2', '\n'])) namedFiles args
  (finish, s.out)

/-- **An argument with a name ends each run**, though the settings are accepted and the expression
has a value. -/
theorem run_namedArgument :
    (loadSettings Batch.bareEnvironment namedFiles none).toOption.map (·.template) =
        some "\x7bx\x7d" ∧
      evaluate Vocabulary.standard.domain .standard ['2'] = .ok (.number (.float 2)) ∧
      runNamed ["eval", "2"] = (.failure (.formatKey "x"), "") ∧
      runNamed ["repl"] = (.failure (.formatKey "x"), "") ∧
      runNamed ["file", "-"] = (.failure (.formatKey "x"), "") :=
  ⟨by decide +kernel, Batch.evaluate_two, by decide +kernel, by decide +kernel,
    by decide +kernel⟩

end Call

end Calculator
