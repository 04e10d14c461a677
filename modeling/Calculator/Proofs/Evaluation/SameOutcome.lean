import Calculator.Proofs.Evaluation.Located
import Calculator.Proofs.Source.Layout
import Calculator.Vocabulary

/-!
# Layout does not change the outcome

Two evaluations have the same outcome (`SameOutcome`) if they have the same value, or diagnostics
that differ at most in the line and the position. What a source is evaluated to depends on its
lexemes and on how they end, and on nothing else (`Transcript.sameOutcome`): lexemes say which rules
apply and where a fault is, and only the report on it looks at positions. So sources in which the
scan finds the same tokens have the same outcome, and so have sources that differ in their blanks
(`evaluate_layout`).
-/

set_option autoImplicit false

namespace Calculator

variable {V : Type}

/-! ## Outcomes without positions -/

/-- The stages are of one class, with the same lexeme at fault and the same reason. -/
inductive Stage.Same : Stage → Stage → Prop where
  | general : Same .general .general
  | scan : Same .scan .scan
  | parse {t t' : Token} : t.toLexeme = t'.toLexeme → Same (.parse t) (.parse t')
  | eval {t t' : Token} {reason : String} : t.toLexeme = t'.toLexeme →
      Same (.eval t reason) (.eval t' reason)

/-- The diagnostics differ at most in the line and the position. -/
structure Diagnostic.Same (e e' : Diagnostic) : Prop where
  stage : e.stage.Same e'.stage
  unexpected : e.unexpected = e'.unexpected
  expected : e.expected = e'.expected

/-- The evaluations have the same value, diagnostics that differ at most in the line and the
position, or the same failure. -/
inductive SameOutcome : Except Trouble V → Except Trouble V → Prop where
  | value (v : V) : SameOutcome (.ok v) (.ok v)
  | diagnosed {e e' : Diagnostic} : e.Same e' →
      SameOutcome (.error (.diagnosed e)) (.error (.diagnosed e'))
  | escaped (cause : Failure) : SameOutcome (.error (.escaped cause)) (.error (.escaped cause))

theorem Diagnostic.same_ofScan (unexpected line line' : String) (p p' : Position) :
    (ofScan unexpected line p).Same (ofScan unexpected line' p') :=
  ⟨.scan, rfl, rfl⟩

theorem Diagnostic.same_ofParse {t u : Token} (h : t.toLexeme = u.toLexeme)
    (line line' : String) (expected : Option String) :
    (ofParse t line expected).Same (ofParse u line' expected) := by
  have hkind : t.kind = u.kind := congrArg Lexeme.kind h
  refine ⟨.parse h, ?_, rfl⟩
  simp only [ofParse, hkind]

theorem Diagnostic.same_ofEval {t u : Token} (h : t.toLexeme = u.toLexeme)
    (line line' reason : String) : (ofEval t line reason).Same (ofEval u line' reason) := by
  have htext : t.text = u.text := congrArg Lexeme.text h
  refine ⟨.eval h, ?_, rfl⟩
  simp only [ofEval, htext]

/-! ## Transcripts with the same lexemes -/

/-- The transcript ends at the end of the input, or at the diagnostic of the lexical fault. -/
inductive Concludes : Option LexicalFault → Except Trouble Entry → Prop where
  | finished {position passed} : Concludes none (.ok ⟨⟨⟨.endOfInput, ""⟩, position⟩, passed⟩)
  | fault {cause : LexicalFault} {line position} :
      Concludes (some cause) (.error (.diagnosed (.ofScan cause.name line position)))

/-- The transcript of a source has the lexemes that the scan finds, and ends as it does. -/
theorem Finds.transcript {s : List Char} {ls : List Lexeme} {fault? : Option LexicalFault}
    (h : Finds s ls fault?) :
    (Transcript.ofText s).lexemes = ls ∧ Concludes fault? (Transcript.ofText s).ending := by
  obtain ⟨ts, c, hdel, rfl, hend⟩ := h
  obtain ⟨hentries, hending⟩ := hdel.ofResults_append
  rw [Transcript.lexemes_eq_plain, Transcript.tokens, Transcript.ofText, hentries, hending]
  generalize hscan : c.scan.1 = result at hend
  cases hend with
  | finished =>
      rw [Cursor.results_of_endOfInput hscan rfl, Transcript.ofResults_endOfInput hscan rfl]
      exact ⟨by simp only [List.map_nil, List.append_nil, plain], .finished⟩
  | fault =>
      rw [Cursor.results_of_error hscan, Transcript.ofResults_error hscan]
      exact ⟨by simp only [List.map_nil, List.append_nil, plain], .fault⟩

namespace Transcript

variable {t t' : Transcript} {fault? : Option LexicalFault}

/-- Lexemes end in the same way if their faults are the same. -/
theorem endingKind_of_concludes (h : Concludes fault? t.ending) :
    t.endingKind = if fault?.isSome then .broken else .complete := by
  rcases t with ⟨entries, ending⟩
  cases h with
  | finished => rfl
  | fault => rfl

/-- The lexeme of the entry that is found from the end depends on the lexemes only. -/
theorem toLexeme_entryAt? (h : Concludes fault? t.ending) (n : Nat) :
    ((t.entryAt? n).getD emptyEntry).token.toLexeme =
      if n = 0 then ⟨.endOfInput, ""⟩
      else (t.lexemes[t.lexemes.length - n]?).getD ⟨.endOfInput, ""⟩ := by
  rw [entryAt?]
  split
  · rcases t with ⟨entries, ending⟩
    cases h with
    | finished => rfl
    | fault => rfl
  · simp only [lexemes, List.length_map, List.getElem?_map]
    cases t.entries[t.entries.length - n]? with
    | none => rfl
    | some e => rfl

/-- A fault is located at the same lexeme. -/
theorem toLexeme_located (h : Concludes fault? t.ending) (h' : Concludes fault? t'.ending)
    (hlexemes : t.lexemes = t'.lexemes) (site ahead : List Lexeme) :
    (t.located site ahead).1.toLexeme = (t'.located site ahead).1.toLexeme := by
  simp only [located]
  rw [toLexeme_entryAt? h, toLexeme_entryAt? h', hlexemes]

/-- The reports on a fault of the rules differ at most in the line and the position. -/
theorem sameOutcome_report (h : Concludes fault? t.ending) (h' : Concludes fault? t'.ending)
    (hlexemes : t.lexemes = t'.lexemes) (limit : Nat) (fault : Fault)
    (hwithin : fault.Within t.lexemes t.endingKind) :
    SameOutcome (V := V) (.error (t.report limit fault)) (.error (t'.report limit fault)) := by
  cases fault with
  | lexical =>
      -- the lexemes end in a fault, since it has been reached
      have hbroken : t.endingKind = .broken := hwithin
      rw [endingKind_of_concludes h] at hbroken
      simp only [report]
      generalize t.ending = ending, t'.ending = ending' at h h'
      cases h with
      | finished => cases hbroken
      | fault =>
          cases h' with
          | fault => exact .diagnosed (Diagnostic.same_ofScan _ _ _ _ _)
  | misplaced site ahead expected =>
      exact .diagnosed (Diagnostic.same_ofParse (toLexeme_located h h' hlexemes site ahead) _ _ _)
  | step site ahead reason =>
      exact .diagnosed (Diagnostic.same_ofEval (toLexeme_located h h' hlexemes site ahead) _ _ _)
  | escaped cause => exact .escaped cause

/-- The outcome depends on the lexemes and on how they end. -/
theorem sameOutcome (h : Concludes fault? t.ending) (h' : Concludes fault? t'.ending)
    (hlexemes : t.lexemes = t'.lexemes) (d : Domain V) (limit : DepthLimit) :
    SameOutcome (t.evaluate d limit) (t'.evaluate d limit) := by
  have hkind : t.endingKind = t'.endingKind := by
    rw [endingKind_of_concludes h, endingKind_of_concludes h']
  have hwithin := evaluateLexemes_within d t.endingKind limit.levels t.lexemes
  rw [evaluate, evaluate, ← hkind, ← hlexemes]
  cases hrun : evaluateLexemes d t.endingKind limit.levels t.lexemes with
  | ok v => exact .value v
  | error fault =>
      rw [hrun] at hwithin
      exact sameOutcome_report h h' hlexemes limit.levels fault hwithin

end Transcript

/-! ## Sources -/

theorem Finds.sameOutcome {s s' : List Char} {ls : List Lexeme} {fault? : Option LexicalFault}
    (h : Finds s ls fault?) (h' : Finds s' ls fault?) (d : Domain V) (limit : DepthLimit) :
    SameOutcome (evaluate d limit s) (evaluate d limit s') := by
  obtain ⟨hlexemes, hend⟩ := h.transcript
  obtain ⟨hlexemes', hend'⟩ := h'.transcript
  exact Transcript.sameOutcome hend hend' (hlexemes.trans hlexemes'.symm) d limit

/-- **Layout does not change the outcome.** In every source the scan finds lexemes, and the end of
the input or a lexical fault behind them. Two sources with the same lexemes and the same end have
the same outcome, and a source that is relaid with other blanks keeps its outcome. -/
theorem evaluate_layout (d : Domain V) (limit : DepthLimit) :
    (∀ s, ∃ ls fault?, Finds s ls fault?) ∧
    (∀ s s' ls fault?, Finds s ls fault? → Finds s' ls fault? →
      SameOutcome (evaluate d limit s) (evaluate d limit s')) ∧
    ∀ s s', Relaid s s' → SameOutcome (evaluate d limit s) (evaluate d limit s') := by
  refine ⟨?_, ?_, ?_⟩
  · intro s
    obtain ⟨ls, fault?, hs⟩ := exists_yields s
    exact ⟨ls, fault?, hs.delivers (.ofText s)⟩
  · intro s s' ls fault? h h'
    exact h.sameOutcome h' d limit
  · intro s s' h
    obtain ⟨ls, fault?, hs, hs'⟩ := h.finds
    exact hs.sameOutcome hs' d limit

/-- A line end in place of a blank, and one more behind the text, change nothing. -/
theorem layout_unknownName :
    Relaid "2 * x".toList "2 *\r\nx\n".toList ∧
      SameOutcome (evaluate Vocabulary.standard.domain .standard "2 * x".toList)
        (evaluate Vocabulary.standard.domain .standard "2 *\r\nx\n".toList) := by
  have hrelaid : Relaid "2 * x".toList "2 *\r\nx\n".toList := by
    have hinside : Relaid ("2 *".toList ++ [' '] ++ "x".toList)
        ("2 *".toList ++ ['\r', '\n'] ++ "x".toList) :=
      .inside (by decide) (by decide) (by decide) (by decide)
    have hend : Relaid ("2 *\r\nx".toList ++ []) ("2 *\r\nx".toList ++ ['\n']) :=
      .atEnd (by decide) (by decide)
    exact hinside.trans hend
  exact ⟨hrelaid, (evaluate_layout Vocabulary.standard.domain .standard).2.2 _ _ hrelaid⟩

end Calculator
