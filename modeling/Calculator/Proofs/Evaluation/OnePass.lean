import Calculator.Proofs.Evaluation.Located
import Calculator.Proofs.Grammar.Agreement
import Calculator.Vocabulary

/-!
# One pass

Evaluation in one pass over the tokens of a source against the two passes of the grammar: first a
syntax tree of all the tokens, then the value of the tree. A source with a tree has just one, and
evaluation has the outcome of that tree: its value, or its first failing step. A source without a
tree has no value (`evaluate_eq_value_of_tree`).
-/

set_option autoImplicit false

namespace Calculator

variable {V : Type}

/-- The tree is a syntax tree of the whole source within the nesting limit, where the domain tells
which names are constants and which are functions. -/
def IsTreeOf (d : Domain V) (limit : DepthLimit) (s : List Char) (t : Tree) : Prop :=
  ∃ ts, Scanned s ts ∧ Derives d.lexicon (.chain .sum) ts t [] ∧ t.nesting ≤ limit.levels

/-- The outcome of an evaluation is that of a tree. A failing step is reported at the token of its
operator or function. -/
def Realises (outcome : Except Trouble V) : Except Halt V → Prop
  | .ok v => outcome = .ok v
  | .error (.step token reason) =>
    ∃ line, outcome = .error (.diagnosed (.ofEval token line reason))
  | .error (.escaped cause) => outcome = .error (.escaped cause)
  | .error (.unknown _) => False

theorem Realises.eq_step {halt : Halt} {token : Token} {line reason : String}
    (h : Realises (.error (.diagnosed (.ofEval token line reason)) : Except Trouble V)
      (.error halt)) : halt = .step token reason := by
  cases halt with
  | step token' reason' =>
      obtain ⟨line', hline⟩ := h
      obtain ⟨rfl, rfl⟩ := Stage.eval.inj
        (congrArg Diagnostic.stage (Trouble.diagnosed.inj (Except.error.inj hline)))
      rfl
  | escaped cause => cases h
  | unknown name => cases h

theorem Realises.eq_escaped {halt : Halt} {cause : Failure}
    (h : Realises (.error (.escaped cause) : Except Trouble V) (.error halt)) :
    halt = .escaped cause := by
  cases halt with
  | step token reason =>
      obtain ⟨line, hline⟩ := h
      cases hline
  | escaped cause' =>
      obtain rfl := Trouble.escaped.inj (Except.error.inj h)
      rfl
  | unknown name => cases h

/-- The tokens of a source are those of its transcript, which ends at the end of the input. -/
theorem Scanned.transcript {s : List Char} {ts : List Token} (h : Scanned s ts) :
    (Transcript.ofText s).tokens = ts ∧ (Transcript.ofText s).endingKind = .complete := by
  obtain ⟨c, eoi, hdel, hscan, hkind⟩ := h
  obtain ⟨hts, hending⟩ := hdel.ofResults_eq hscan hkind
  exact ⟨hts, Transcript.endingKind_eq_complete.2 hending⟩

/-- A source that is scanned to the end of its input has its tokens in its transcript. -/
theorem scanned_of_complete {s : List Char}
    (h : (Transcript.ofText s).endingKind = .complete) :
    Scanned s (Transcript.ofText s).tokens := by
  obtain ⟨e, he⟩ := Transcript.endingKind_eq_complete.1 h
  obtain ⟨c, hdel, hscan, hkind, -⟩ := (transcribes_ofResults (.ofText s)).finished_behind he
  exact ⟨c, e.token, hdel, hscan, hkind⟩

/-- A source has at most one tree. -/
theorem IsTreeOf.unique {d : Domain V} {limit : DepthLimit} {s : List Char} {t t' : Tree}
    (h : IsTreeOf d limit s t) (h' : IsTreeOf d limit s t') : t = t' := by
  obtain ⟨ts, hts, ht, -⟩ := h
  obtain ⟨us, hus, ht', -⟩ := h'
  obtain rfl := hts.unique hus
  exact (ht.unique ht' (stops_nil _) (stops_nil _)).1

/-- A step that fails at a token of the source is reported at that token. -/
theorem located_of_plain_suffix {t : Transcript} {token : Token} {after : List Token}
    (h : token :: after <:+ t.tokens) (ahead : List Lexeme) :
    ∃ line, t.located (plain (token :: after)) ahead = (token, line) := by
  obtain ⟨us, hus⟩ := h
  obtain ⟨es, vs, hentries, -, hvs⟩ := List.map_eq_append_iff.1 hus.symm
  obtain ⟨e, vs, rfl, rfl, rfl⟩ := List.map_eq_cons_iff.1 hvs
  have hfound := Transcript.entryAt?_of_entries hentries
  refine ⟨(t.located (plain (e.token :: vs.map (·.token))) ahead).2, Prod.ext ?_ rfl⟩
  simp only [Transcript.located, plain_cons, List.length_cons, Transcript.length_plain_tokens,
    hfound, Option.getD_some]

/-- Evaluation has the outcome of the tree of the source. -/
theorem IsTreeOf.realises {d : Domain V} {limit : DepthLimit} {s : List Char} {t : Tree}
    (h : IsTreeOf d limit s t) : Realises (evaluate d limit s) (t.value d) := by
  obtain ⟨ts, hts, hderives, hnesting⟩ := h
  obtain ⟨htokens, hcomplete⟩ := hts.transcript
  -- the rules agree with the tree on the lexemes of the transcript
  have hagrees := evaluateLexemes_agrees hderives hnesting
  rw [← htokens, ← Transcript.lexemes_eq_plain] at hagrees
  unfold evaluate Transcript.evaluate
  rw [hcomplete]
  generalize hrun : evaluateLexemes d .complete limit.levels (Transcript.ofText s).lexemes = run
    at hagrees ⊢
  generalize t.value d = value at hagrees ⊢
  cases run with
  | ok v =>
      cases hagrees
      rfl
  | error fault =>
      cases hagrees with
      | @step token after ahead reason hsuffix =>
          -- the step is located at its own token, however far the scan has come
          obtain ⟨line, hline⟩ := located_of_plain_suffix hsuffix ahead
          refine ⟨line, ?_⟩
          show Except.error ((Transcript.ofText s).report limit.levels
            (.step (plain (token :: after)) ahead reason)) = _
          rw [Transcript.report, hline]
      | escaped cause => rfl

/-- The value of a source is that of its tree. -/
theorem IsTreeOf.evaluate_eq_ok_iff {d : Domain V} {limit : DepthLimit} {s : List Char} {t : Tree}
    {v : V} (ht : IsTreeOf d limit s t) : evaluate d limit s = .ok v ↔ t.value d = .ok v := by
  have hrealises := ht.realises
  constructor
  · intro h
    rw [h] at hrealises
    cases hvalue : t.value d with
    | ok w =>
        rw [hvalue] at hrealises
        exact congrArg Except.ok (Except.ok.inj hrealises).symm
    | error halt =>
        rw [hvalue] at hrealises
        cases halt with
        | step token reason =>
            obtain ⟨line, hline⟩ := hrealises
            cases hline
        | escaped cause => cases hrealises
        | unknown name => cases hrealises
  · intro h
    rw [h] at hrealises
    exact hrealises

/-- A value is found only if the source has been scanned to its end. -/
theorem Transcript.endingKind_of_evaluate {d : Domain V} {limit : DepthLimit} {t : Transcript}
    {v : V} (h : t.evaluate d limit = .ok v) : t.endingKind = .complete := by
  have hwithin := evaluateLexemes_within d t.endingKind limit.levels t.lexemes
  rw [Transcript.evaluate_eq_ok h] at hwithin
  exact hwithin

/-- A source with a value has a tree. -/
theorem exists_tree_of_evaluate {d : Domain V} {limit : DepthLimit} {s : List Char} {v : V}
    (h : evaluate d limit s = .ok v) : ∃ t, IsTreeOf d limit s t := by
  have hcomplete := Transcript.endingKind_of_evaluate h
  have hrun := Transcript.evaluate_eq_ok h
  rw [hcomplete, Transcript.lexemes_eq_plain] at hrun
  obtain ⟨t, hderives, hnesting⟩ := evaluateLexemes_recognises hrun
  exact ⟨t, _, scanned_of_complete hcomplete, hderives, hnesting⟩

/-- What has a value has been delivered as a whole. -/
theorem evaluate_of_evaluateSupply {d : Domain V} {limit : DepthLimit} {s : Supply} {v : V}
    (h : evaluateSupply d limit s = .ok v) : evaluate d limit s.text = .ok v := by
  rcases ofSupply_cases s with htext | ⟨cause, hending⟩
  · rwa [evaluateSupply, htext] at h
  · obtain ⟨e, hcomplete⟩ :=
      Transcript.endingKind_eq_complete.1 (Transcript.endingKind_of_evaluate h)
    rw [hending] at hcomplete
    cases hcomplete

end Calculator
