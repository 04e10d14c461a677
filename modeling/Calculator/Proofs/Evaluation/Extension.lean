import Calculator.Proofs.Evaluation.Located
import Calculator.Proofs.Expression.Comparison
import Calculator.Vocabulary

/-!
# More names

A domain that extends another one has all its constants and functions with the values they have
there, and possibly more (`Domain.ExtendedBy`); a new function may have the name of an old constant,
and a new constant that of an old function. Such a domain keeps every outcome but one: an evaluation
that ended at a name that did not fit may go on (`evaluateSupply_extension`). Values, scan errors
and evaluation errors stay as they are. Vocabularies are extended by defining names they do not
define yet (`Vocabulary.setConstant_extends`, `Vocabulary.setFunction_extends`).
-/

set_option autoImplicit false

namespace Calculator

variable {V : Type}

/-- The second domain reads literals and computes as the first one does, and every constant and
every function of the first is the same in the second. -/
structure Domain.ExtendedBy (d d' : Domain V) : Prop where
  literal : d'.literal = d.literal
  negate : d'.negate = d.negate
  operate : d'.operate = d.operate
  constant {name : String} {v : V} : d.constant? name = some v → d'.constant? name = some v
  function {name : String} {f : V → Except Mishap V} :
    d.function? name = some f → d'.function? name = some f

/-! ## Faults about names -/

/-- What was expected has to do with what a name stands for. -/
inductive Expectation.IsOfName : Expectation → Prop where
  | argument (name : String) : IsOfName (.argument name)
  | constant (name : String) : IsOfName (.constant name)
  | operatorAfter (name : String) : IsOfName (.operatorAfter name)
  | function (name : String) : IsOfName (.function name)

/-- A name does not fit as a constant or as a function. -/
def Fault.IsOfName (fault : Fault) : Prop :=
  ∃ site ahead expected, expected.IsOfName ∧ fault = .misplaced site ahead expected

/-- The diagnostic is a parse error about a name that does not fit. -/
def Diagnostic.IsOfName (limit : DepthLimit) (diag : Diagnostic) : Prop :=
  ∃ token line, ∃ expected : Expectation, expected.IsOfName ∧
    diag = .ofParse token line (some (expected.text limit.levels))

/-- A name that is found in a domain is found in an extension; where it is not, the fault is about
the name. -/
theorem Domain.ExtendedBy.upholds {d d' : Domain V} (h : d.ExtendedBy d') :
    d.Upholds Fault.IsOfName d' where
  literal := h.literal
  negate := h.negate
  operate := h.operate
  constantAt site ahead name := by
    cases hconstant : d.constant? name with
    | some v =>
        simp only [constantAt, hconstant, h.constant hconstant]
        exact .same
    | none =>
        simp only [constantAt, hconstant]
        split
        · exact .spared ⟨_, _, _, .argument name, rfl⟩
        · exact .spared ⟨_, _, _, .constant name, rfl⟩
  callAt group site ahead name := by
    cases hfunction : d.function? name with
    | some f =>
        simp only [callAt, hfunction, h.function hfunction]
        exact .same
    | none =>
        simp only [callAt, hfunction]
        split
        · exact .spared ⟨_, _, _, .operatorAfter name, rfl⟩
        · exact .spared ⟨_, _, _, .function name, rfl⟩

/-! ## Outcomes -/

/-- A transcript has the same outcome by an extension, or a name that does not fit in the first
domain. -/
theorem Transcript.evaluate_extension {d d' : Domain V} (h : d.ExtendedBy d') (limit : DepthLimit)
    (t : Transcript) :
    t.evaluate d' limit = t.evaluate d limit ∨
      ∃ diag, diag.IsOfName limit ∧ t.evaluate d limit = .error (.diagnosed diag) := by
  have hupholds := evaluateLexemes_upholds h.upholds t.endingKind (Nat.le_refl limit.levels)
    (fun hlt => absurd hlt (Nat.lt_irrefl _)) t.lexemes
  unfold evaluate
  generalize evaluateLexemes d t.endingKind limit.levels t.lexemes = run at hupholds ⊢
  generalize evaluateLexemes d' t.endingKind limit.levels t.lexemes = run' at hupholds ⊢
  cases hupholds with
  | same => exact .inl rfl
  | spared hname =>
      obtain ⟨site, ahead, expected, hexpected, rfl⟩ := hname
      exact .inr ⟨_, ⟨_, _, expected, hexpected, rfl⟩, rfl⟩

/-- **An extension keeps every outcome but the names that did not fit.** What a source delivers has
the same value by an extension of the domain, and so it has the same scan error, the same evaluation
error, and the same failure that no diagnostic reports; if the outcome is another one, a name did
not fit. -/
theorem evaluateSupply_extension (d d' : Domain V) (h : d.ExtendedBy d') (limit : DepthLimit)
    (s : Supply) :
    (∀ v, evaluateSupply d limit s = .ok v → evaluateSupply d' limit s = .ok v) ∧
    (∀ diag, diag.stage = .scan ∨ (∃ token reason, diag.stage = .eval token reason) →
      evaluateSupply d limit s = .error (.diagnosed diag) →
        evaluateSupply d' limit s = .error (.diagnosed diag)) ∧
    (∀ cause, evaluateSupply d limit s = .error (.escaped cause) →
      evaluateSupply d' limit s = .error (.escaped cause)) ∧
    (evaluateSupply d' limit s ≠ evaluateSupply d limit s →
      ∃ diag, diag.IsOfName limit ∧ evaluateSupply d limit s = .error (.diagnosed diag)) := by
  rcases (Transcript.ofSupply s).evaluate_extension h limit with hsame | ⟨e, hname, herror⟩
  · have hkept {outcome} (houtcome : evaluateSupply d limit s = outcome) :
        evaluateSupply d' limit s = outcome := hsame.trans houtcome
    exact ⟨fun _ => hkept, fun _ _ => hkept, fun _ => hkept, fun hne => absurd hsame hne⟩
  · -- the outcome is a parse error, which is none of the others
    have herror : evaluateSupply d limit s = .error (.diagnosed e) := herror
    refine ⟨?_, ?_, ?_, fun _ => ⟨e, hname, herror⟩⟩
    · intro v hv
      cases herror.symm.trans hv
    · intro diag hstage hdiag
      obtain ⟨token, line, expected, -, rfl⟩ := hname
      cases herror.symm.trans hdiag
      rcases hstage with hscan | ⟨_, _, heval⟩
      · cases hscan
      · cases heval
    · intro cause hcause
      cases herror.symm.trans hcause

/-! ## Vocabularies -/

theorem Domain.ExtendedBy.trans {d₁ d₂ d₃ : Domain V} (h : d₁.ExtendedBy d₂)
    (h' : d₂.ExtendedBy d₃) : d₁.ExtendedBy d₃ where
  literal := h'.literal.trans h.literal
  negate := h'.negate.trans h.negate
  operate := h'.operate.trans h.operate
  constant hv := h'.constant (h.constant hv)
  function hf := h'.function (h.function hf)

/-- A name keeps its value when another one is set. -/
theorem Names.lookup_set_of_ne {α : Type} {names : Names α} {name other : String} {a : α}
    (h : other ≠ name) : (names.set name a).lookup other = names.lookup other := by
  have hlast : ([(name, a)] : Names α).lookup other = none := by
    rw [List.lookup_cons, beq_false_of_ne h]
    rfl
  rw [set, List.lookup_append, hlast, Option.or_none]
  induction names with
  | nil => rfl
  | cons entry names ih =>
      by_cases hentry : entry.1 = name
      · have hother : (other == entry.1) = false := by
          rw [hentry]
          exact beq_false_of_ne h
        rw [List.filter_cons_of_neg (by simpa using hentry), ih, List.lookup_cons, hother]
      · rw [List.filter_cons_of_pos (by simpa using hentry), List.lookup_cons, List.lookup_cons, ih]

namespace Vocabulary

variable {v : Vocabulary} {name : String}

/-- A constant with a new name, or with the name of a null constant, only adds to a vocabulary. -/
theorem setConstant_extends (h : v.value? name = none) (a : Datum) :
    v.domain.ExtendedBy (v.setConstant name a).domain where
  literal := rfl
  negate := rfl
  operate := rfl
  constant {other c} hc := by
    have hne : other ≠ name := by
      rintro rfl
      cases h.symm.trans hc
    show (v.setConstant name a).value? other = some c
    rw [value?, setConstant, Names.lookup_set_of_ne hne]
    exact hc
  function hf := hf

/-- A function with a new name only adds to a vocabulary. -/
theorem setFunction_extends (h : v.functions.lookup name = none) (f : Function) :
    v.domain.ExtendedBy (v.setFunction name f).domain where
  literal := rfl
  negate := rfl
  operate := rfl
  constant hc := hc
  function {other g} hg := by
    have hne : other ≠ name := by
      rintro rfl
      simp only [domain, h, Option.map_none, reduceCtorEq] at hg
    show ((v.setFunction name f).functions.lookup other).map Function.step = some g
    rw [setFunction, Names.lookup_set_of_ne hne]
    exact hg

end Vocabulary

/-! ## Names of both kinds -/

/-- Integers, with a constant `k` and a function `f`. -/
def Vocabulary.pair : Vocabulary where
  constants := [("k", .int 2)]
  functions := [("f", .ofReal pure)]
  literal := intLiteral

/-- The same with a function `k` and a constant `f`. -/
def Vocabulary.twoPairs : Vocabulary :=
  (pair.setFunction "k" (.ofReal pure)).setConstant "f" (.int 7)

set_option maxRecDepth 10000 in
theorem evaluateSupply_applied :
    evaluateSupply Vocabulary.pair.domain .standard (.ofText ['f', '(', 'k', ')']) =
      .ok (.int 2) := by
  have htranscript : Transcript.ofSupply (.ofText ['f', '(', 'k', ')']) =
      ⟨[⟨⟨⟨.identifier, "f"⟩, ⟨1, 1⟩⟩, Passed.start.passAll ['f']⟩,
        ⟨⟨⟨.leftParen, "("⟩, ⟨1, 2⟩⟩, Passed.start.passAll ['f', '(']⟩,
        ⟨⟨⟨.identifier, "k"⟩, ⟨1, 3⟩⟩, Passed.start.passAll ['f', '(', 'k']⟩,
        ⟨⟨⟨.rightParen, ")"⟩, ⟨1, 4⟩⟩, Passed.start.passAll ['f', '(', 'k', ')']⟩],
        .ok ⟨⟨⟨.endOfInput, ""⟩, ⟨1, 5⟩⟩, Passed.start.passAll ['f', '(', 'k', ')']⟩⟩ := by
    show Transcript.ofResults (Cursor.ofText ['f', '(', 'k', ')']).results = _
    rw [Cursor.results_of_token rfl (by decide), Cursor.results_of_token rfl (by decide),
      Cursor.results_of_token rfl (by decide), Cursor.results_of_token rfl (by decide),
      Cursor.results_of_endOfInput rfl rfl]
    rfl
  rw [evaluateSupply, htranscript]
  rfl

set_option maxRecDepth 10000 in
theorem evaluateSupply_divided :
    evaluateSupply Vocabulary.pair.domain .standard (.ofText ['k', '/', '0']) =
      .error (.diagnosed (.ofEval ⟨⟨.divide, "/"⟩, ⟨1, 2⟩⟩ "k/0" "division by zero")) := by
  have htranscript : Transcript.ofSupply (.ofText ['k', '/', '0']) =
      ⟨[⟨⟨⟨.identifier, "k"⟩, ⟨1, 1⟩⟩, Passed.start.passAll ['k']⟩,
        ⟨⟨⟨.divide, "/"⟩, ⟨1, 2⟩⟩, Passed.start.passAll ['k', '/']⟩,
        ⟨⟨⟨.number, "0"⟩, ⟨1, 3⟩⟩, Passed.start.passAll ['k', '/', '0']⟩],
        .ok ⟨⟨⟨.endOfInput, ""⟩, ⟨1, 4⟩⟩, Passed.start.passAll ['k', '/', '0']⟩⟩ := by
    show Transcript.ofResults (Cursor.ofText ['k', '/', '0']).results = _
    rw [Cursor.results_of_token rfl (by decide), Cursor.results_of_token rfl (by decide),
      Cursor.results_of_token rfl (by decide), Cursor.results_of_endOfInput rfl rfl]
    rfl
  rw [evaluateSupply, htranscript]
  rfl

/-- The value and the evaluation error are kept, though each name has a second meaning now. -/
theorem extension_twoPairs :
    Vocabulary.pair.domain.ExtendedBy Vocabulary.twoPairs.domain ∧
    evaluateSupply Vocabulary.twoPairs.domain .standard (.ofText ['f', '(', 'k', ')']) =
      .ok (.int 2) ∧
    evaluateSupply Vocabulary.twoPairs.domain .standard (.ofText ['k', '/', '0']) =
      .error (.diagnosed (.ofEval ⟨⟨.divide, "/"⟩, ⟨1, 2⟩⟩ "k/0" "division by zero")) := by
  have hextends : Vocabulary.pair.domain.ExtendedBy Vocabulary.twoPairs.domain :=
    (Vocabulary.setFunction_extends (by decide) _).trans (Vocabulary.setConstant_extends rfl _)
  have hkept (s : Supply) := evaluateSupply_extension _ _ hextends .standard s
  refine ⟨hextends, ?_, ?_⟩
  · exact (hkept _).1 _ evaluateSupply_applied
  · exact (hkept _).2.1 _ (.inr ⟨_, _, rfl⟩) evaluateSupply_divided

end Calculator
