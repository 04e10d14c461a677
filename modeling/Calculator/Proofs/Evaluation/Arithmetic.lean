import Calculator.Proofs.Evaluation.Located
import Calculator.Proofs.Evaluation.Performed

/-!
# Arithmetic failures

In a vocabulary of numbers all values are numbers, of any kind and size. A step on numbers that
fails is reported at its operator or function, with one exception: a function that gives a double
that is not finite at an integer beyond the doubles. The look at its result makes a double of the
integer, which fails outside of what the step reports (`Function.step_of_escapesAt`). Nothing else
escapes from the arithmetic of an evaluation (`evaluate_arithmetic`).
-/

set_option autoImplicit false

namespace Calculator

/-! ## Vocabularies of numbers -/

def Datum.IsNumber (d : Datum) : Prop := ∃ n : Number, d = .number n

/-- At numbers the function gives a number or a complex number, or it fails arithmetically. -/
def Function.IsNumeric (f : Function) : Prop :=
  ∀ n : Number, match f (.number n) with
    | .ok (.value d) => d.IsNumber
    | .ok (.complex _ _) => True
    | .error cause => cause.isContained = true

/-- A vocabulary of numbers, as far as some lexemes are concerned: the numbers among them can be
read, constants are numbers, and functions are about numbers. -/
structure Vocabulary.IsNumericOn (v : Vocabulary) (lexemes : List Lexeme) : Prop where
  literal : ∀ l ∈ lexemes, l.kind = .number → ∃ n : Number, v.literal l.text = .ok (.number n)
  constant : ∀ name d, v.value? name = some d → d.IsNumber
  function : ∀ name f, v.functions.lookup name = some f → f.IsNumeric

theorem Vocabulary.IsNumericOn.mono {v : Vocabulary} {lexemes lexemes' : List Lexeme}
    (h : v.IsNumericOn lexemes) (hsub : lexemes' ⊆ lexemes) : v.IsNumericOn lexemes' :=
  ⟨fun l hl => h.literal l (hsub hl), h.constant, h.function⟩

/-! ## Steps on numbers -/

/-- The function gives a double that is not finite at an integer beyond the doubles. -/
def Function.EscapesAt (f : Function) (n : Number) : Prop :=
  ¬ n.InRange ∧ ∃ x : Float, f.result (.number n) = .ok (double x) ∧ x.isFinite = false

/-- A step has a number as its result, or it fails in a way that is reported. Under the given
condition an integer may be too large. -/
def Settled (escapes : Prop) : Except Mishap Datum → Prop
  | .ok d => d.IsNumber
  | .error m => ∀ cause, m = .escaped cause → cause = .intTooLarge ∧ escapes

theorem Settled.mono {p q : Prop} {y : Except Mishap Datum} (h : Settled p y) (hpq : p → q) :
    Settled q y := by
  cases y with
  | ok d => exact h
  | error m => exact fun cause hcause => (h cause hcause).imp_right hpq

theorem settled_of_contained {p : Prop} {m : Mishap}
    (h : Contained (.error m : Except Mishap Datum)) : Settled p (.error m) :=
  fun cause hcause => absurd hcause (h cause)

/-- **A step of an operator on numbers** has a number as its result, or its failure is reported. -/
theorem settled_step (op : Operation) (m n : Number) :
    Settled False (Datum.step op (.number m) (.number n)) := by
  rw [Datum.step_number]
  have hcontained := Number.contained_operate op m n
  cases hresult : Number.operate op m n with
  | error mishap =>
      rw [hresult] at hcontained
      exact settled_of_contained hcontained
  | ok k =>
      show Settled False (ite _ _ _)
      split
      · exact settled_of_contained fun cause hcause => by cases hcause
      · exact ⟨k, rfl⟩

namespace Function

variable {f : Function} {n : Number}

/-- The failure is one to become a double, and no step reports it. -/
theorem step_of_escapesAt (h : f.EscapesAt n) :
    f.step (.number n) = .error (.escaped .intTooLarge) := by
  obtain ⟨hrange, x, hresult, hx⟩ := h
  rw [f.step_eq, hresult]
  exact Datum.settle_of_not_inRange hrange hx

theorem result_settled (hf : f.IsNumeric) (n : Number) :
    Settled False (f.result (.number n)) := by
  have hn := hf n
  unfold result
  cases hvalue : f (.number n) with
  | error cause =>
      rw [hvalue] at hn
      have hmishap : Mishap.ofFailure cause = .failure cause := if_pos hn
      show Settled False (.error (.ofFailure cause))
      rw [hmishap]
      exact settled_of_contained (contained_failure cause)
  | ok o =>
      rw [hvalue] at hn
      cases o with
      | complex _ _ => exact settled_of_contained fun cause hcause => by cases hcause
      | value d => exact hn

/-- **A step of a function on a number** has a number as its result, or its failure is reported, or
the function escapes at this number. -/
theorem step_settled (hf : f.IsNumeric) (n : Number) :
    Settled (f.EscapesAt n) (f.step (.number n)) := by
  have hsettled := result_settled hf n
  rw [f.step_eq]
  cases hresult : f.result (.number n) with
  | error mishap =>
      rw [hresult] at hsettled
      exact hsettled.mono False.elim
  | ok d =>
      rw [hresult] at hsettled
      obtain ⟨k, rfl⟩ := hsettled
      show Settled _ (Datum.settle [.number n] (.number k))
      cases hk : k.isFinite with
      | true =>
          rw [Datum.settle_of_isFinite _ hk]
          exact ⟨k, rfl⟩
      | false =>
          obtain ⟨x, rfl⟩ := Number.exists_float_of_not_isFinite hk
          by_cases hrange : n.InRange
          · have hoperands : ∀ k ∈ [n], k.InRange := by
              simpa using hrange
            have hsettle : Datum.settle [.number n] (.number (.float x)) = ite _ _ _ :=
              Datum.settle_of_not_isFinite hoperands hk
            rw [hsettle]
            split
            · exact settled_of_contained fun cause hcause => by cases hcause
            · exact ⟨_, rfl⟩
          · -- the look at the result fails, and this is the exception
            have hsettle : Datum.settle [.number n] (.number (.float x)) = _ :=
              Datum.settle_of_not_inRange hrange hk
            rw [hsettle]
            intro cause hcause
            cases hcause
            exact ⟨rfl, hrange, x, hresult, hk⟩

end Function

/-! ## Values and faults of the rules -/

/-- The operator or function of a lexeme fails on some numbers. -/
def Vocabulary.Fails (v : Vocabulary) (l : Lexeme) (m : Mishap) : Prop :=
  (∃ op a b, Denotes l.kind op ∧ Datum.step op (.number a) (.number b) = .error m) ∨
  ∃ f a, l.kind = .identifier ∧ v.functions.lookup l.text = some f ∧
    f.step (.number a) = .error m

/-- A function that is named escapes at some number. -/
def Vocabulary.Escapes (v : Vocabulary) (l : Lexeme) : Prop :=
  ∃ f n, l.kind = .identifier ∧ v.functions.lookup l.text = some f ∧ f.EscapesAt n

/-- A fault of the rules, or one of a step on numbers. -/
def Fault.Numeric (v : Vocabulary) (lexemes : List Lexeme) : Fault → Prop
  | .lexical | .misplaced _ _ _ => True
  | .step site _ reason =>
    ∃ l ∈ site.head?, ∃ m, v.Fails l m ∧ ∀ token, Halt.ofMishap token m = .step token reason
  | .escaped cause => cause = .intTooLarge ∧ ∃ l ∈ lexemes, v.Escapes l

section Kept

variable {v : Vocabulary} {lexemes : List Lexeme}

theorem numeric_applied {l : Lexeme} {rest ahead : List Lexeme} {escapes : Prop}
    {y : Except Mishap Datum} (hy : Settled escapes y)
    (hfails : ∀ m, y = .error m → v.Fails l m) (hescapes : escapes → ∃ l ∈ lexemes, v.Escapes l) :
    Meets (fun r => Datum.IsNumber r.1) (Fault.Numeric v lexemes)
      (applied (l :: rest) ahead y) := by
  cases y with
  | ok d => exact hy
  | error m =>
      have hfails := hfails m rfl
      cases m with
      | escaped cause => exact (hy cause rfl).imp_right hescapes
      | failure cause => exact ⟨l, rfl, _, hfails, fun _ => rfl⟩
      | complexResult => exact ⟨l, rfl, _, hfails, fun _ => rfl⟩
      | overflow => exact ⟨l, rfl, _, hfails, fun _ => rfl⟩

/-- Every step of the rules in a vocabulary of numbers keeps values numbers. -/
theorem numeric_kept (hv : v.IsNumericOn lexemes) :
    KeepsValues v.domain lexemes Datum.IsNumber (Fault.Numeric v lexemes) where
  lexical := trivial
  misplaced _ _ _ := trivial
  literal l hmem hl := by
    obtain ⟨n, hn⟩ := hv.literal l hmem hl
    show Meets _ _ ((v.literal l.text).mapError .escaped)
    rw [hn]
    exact ⟨n, rfl⟩
  constant hd := hv.constant _ _ hd
  negate hd := by
    obtain ⟨n, rfl⟩ := hd
    exact ⟨n.negate, rfl⟩
  operate {_ _ _ op _ _} _ hop ha hb := by
    obtain ⟨m, rfl⟩ := ha
    obtain ⟨n, rfl⟩ := hb
    exact numeric_applied (settled_step op m n) (fun mishap h => .inl ⟨op, m, n, hop, h⟩)
      False.elim
  apply {l _ _ _ _} hs hl hf ha := by
    obtain ⟨f, hlookup, rfl⟩ := Option.map_eq_some_iff.1 hf
    obtain ⟨n, rfl⟩ := ha
    refine numeric_applied (Function.step_settled (hv.function _ f hlookup) n)
      (fun mishap h => .inr ⟨f, n, hl, hlookup, h⟩) fun hescapes => ?_
    exact ⟨l, hs.subset List.mem_cons_self, f, n, hl, hlookup, hescapes⟩

end Kept

/-! ## Steps of a tree -/

/-- The step is one of a function that escapes at its operand. -/
def Step.Escapes (v : Vocabulary) (σ : Step) : Prop :=
  ∃ f n, v.functions.lookup σ.token.text = some f ∧
    σ = ⟨σ.token, [.number n], f.result (.number n)⟩ ∧ f.EscapesAt n

theorem Step.outcome_of_escapes {v : Vocabulary} {σ : Step} (h : σ.Escapes v) :
    σ.outcome = .error (.escaped .intTooLarge) := by
  obtain ⟨f, n, -, heq, hescapes⟩ := h
  rw [heq]
  exact (f.step_eq _).symm.trans (Function.step_of_escapesAt hescapes)

/-- A step on numbers is settled, unless it escapes. -/
theorem Step.outcome_settled {v : Vocabulary} {lexemes : List Lexeme} {σ : Step}
    (hv : v.IsNumericOn lexemes) (hσ : σ.IsOf v) (hnumbers : ∀ a ∈ σ.operands, a.IsNumber) :
    Settled (σ.Escapes v) σ.outcome := by
  cases hσ with
  | @operator token op a b =>
      obtain ⟨m, rfl⟩ := hnumbers a List.mem_cons_self
      obtain ⟨n, rfl⟩ := hnumbers b (List.mem_cons_of_mem _ List.mem_cons_self)
      exact (settled_step op m n).mono False.elim
  | @function token f a hf =>
      obtain ⟨n, rfl⟩ := hnumbers a List.mem_cons_self
      have hsettled := Function.step_settled (hv.function _ f hf) n
      rw [f.step_eq] at hsettled
      exact hsettled.mono fun hescapes => ⟨f, n, hf, rfl, hescapes⟩

/-- A step that gives no value fails. -/
theorem Step.exists_mishap {σ : Step} {halt : Halt} (h : σ.value = .error halt) :
    ∃ m, σ.outcome = .error m := by
  cases hm : σ.outcome with
  | error m => exact ⟨m, rfl⟩
  | ok d =>
      rw [value, hm] at h
      cases h

section Trees

variable {v : Vocabulary} {lexemes : List Lexeme} {t : Tree} {r : Except Halt Datum}
  {σs : List Step}

/-- The values of a tree are numbers, and so are all operands of its steps. -/
theorem Tree.Runs.keeps_numbers (h : Tree.Runs v t r σs) (hv : v.IsNumericOn lexemes)
    (hliterals : ∀ l ∈ t.literals, l.toLexeme ∈ lexemes ∧ l.kind = .number) :
    (∀ d, r = .ok d → d.IsNumber) ∧ ∀ σ ∈ σs, ∀ a ∈ σ.operands, a.IsNumber := by
  apply h.keeps
  · intro l hl d hd
    obtain ⟨hmem, hkind⟩ := hliterals l hl
    obtain ⟨n, hn⟩ := hv.literal _ hmem hkind
    exact ⟨n, Except.ok.inj (hd.symm.trans hn)⟩
  · exact hv.constant
  · rintro _ d ⟨n, rfl⟩ hd
    exact ⟨n.negate, (Except.ok.inj hd).symm⟩
  · intro σ hσ hnumbers d hd
    have hsettled := Step.outcome_settled hv (h.isOf σ hσ) hnumbers
    rw [hd] at hsettled
    exact hsettled

/-- **A tree without a value has a step that fails**, if its names are known. -/
theorem Tree.Runs.exists_step (h : Tree.Runs v t r σs) (hv : v.IsNumericOn lexemes)
    (hliterals : ∀ l ∈ t.literals, l.toLexeme ∈ lexemes ∧ l.kind = .number) {halt : Halt}
    (hr : r = .error halt) :
    (∃ name, halt = .unknown name) ∨ ∃ σ ∈ σs, ∃ m, σ.outcome = .error m := by
  induction h with
  | @number l =>
      obtain ⟨hmem, hkind⟩ := hliterals l List.mem_cons_self
      obtain ⟨n, hn⟩ := hv.literal _ hmem hkind
      rw [hn] at hr
      cases hr
  | constant _ => cases hr
  | unknownConstant _ | unknownFunction _ => exact .inl ⟨_, (Except.error.inj hr).symm⟩
  | group _ ih | noBody _ ih | noArgument _ _ ih => exact ih hliterals hr
  | negative hbody _ =>
      -- the sign of a number can always be changed
      obtain ⟨n, rfl⟩ := (hbody.keeps_numbers hv hliterals).1 _ rfl
      cases hr
  | call _ _ _ =>
      obtain ⟨m, hm⟩ := Step.exists_mishap hr
      exact .inr ⟨_, List.mem_append_right _ (List.mem_singleton_self _), m, hm⟩
  | binary _ _ _ _ =>
      obtain ⟨m, hm⟩ := Step.exists_mishap hr
      exact .inr ⟨_, List.mem_append_right _ (List.mem_singleton_self _), m, hm⟩
  | noLeft _ ih => exact ih (List.forall_mem_append.1 hliterals).1 hr
  | noRight _ _ _ ihr =>
      refine (ihr (List.forall_mem_append.1 hliterals).2 hr).imp_right ?_
      rintro ⟨σ, hσ, hfails⟩
      exact ⟨σ, List.mem_append_right _ hσ, hfails⟩

end Trees

/-! ## Sources -/

/-- What may come out of the evaluation of a supply in a vocabulary of numbers: a number, a
diagnostic of the scan or of the rules, or one of an operator or function that fails on some numbers.
Otherwise the supply has failed, or the source names a function that escapes. -/
def Vocabulary.Allows (v : Vocabulary) (s : Supply) : Except Trouble Datum → Prop
  | .ok d => d.IsNumber
  | .error (.diagnosed diag) => diag.stage = .scan ∨ (∃ token, diag.stage = .parse token) ∨
    ∃ token reason m, diag.stage = .eval token reason ∧ v.Fails token.toLexeme m ∧
      Halt.ofMishap token m = .step token reason
  | .error (.escaped cause) => s.failure? = some cause ∨
    cause = .intTooLarge ∧ ∃ l ∈ (Transcript.ofSupply s).lexemes, v.Escapes l

section Sources

variable {v : Vocabulary} {limit : DepthLimit}

theorem allows_evaluateSupply {s : Supply}
    (hv : v.IsNumericOn (Transcript.ofText s.text).lexemes) :
    v.Allows s (evaluateSupply v.domain limit s) := by
  have hnumeric := (numeric_kept (hv.mono (ofSupply_lexemes_subset s))).evaluateLexemes_meets
    (Transcript.ofSupply s).endingKind limit.levels
  cases h : evaluateSupply v.domain limit s with
  | ok d =>
      rw [Transcript.evaluate_eq_ok h] at hnumeric
      exact hnumeric
  | error trouble =>
      cases trouble with
      | escaped cause =>
          rcases evaluateSupply_escaped h with hfailure | hrun
          · exact .inl hfailure
          · rw [hrun] at hnumeric
            exact .inr hnumeric
      | diagnosed diag =>
          cases evaluateSupply_diagnosed h with
          | scan _ _ hscan => exact .inl (Cursor.stage_of_scan hscan)
          | misplaced _ _ => exact .inr (.inl ⟨_, rfl⟩)
          | step hrun hne hstands =>
              rw [hrun] at hnumeric
              obtain ⟨l, hl, m, hfails, hreason⟩ := hnumeric
              have hlexeme := hstands.toLexeme_eq hl
              rw [← hlexeme] at hfails
              exact .inr (.inr ⟨_, _, m, rfl, hfails, hreason _⟩)

variable {s : List Char} {t : Tree}

/-- A source without a value has a step that fails, if it has a tree. -/
theorem IsTreeOf.exists_step {trouble : Trouble} (ht : IsTreeOf v.domain limit s t)
    (hv : v.IsNumericOn (Transcript.ofText s).lexemes)
    (h : evaluate v.domain limit s = .error trouble) :
    ∃ σ ∈ t.steps v, ∃ m, σ.outcome = .error m := by
  have hrealises := ht.realises
  cases hvalue : t.value v.domain with
  | ok d =>
      rw [hvalue, h] at hrealises
      cases hrealises
  | error halt =>
      refine ((t.runs v).exists_step hv ht.literals hvalue).resolve_left ?_
      rintro ⟨name, rfl⟩
      rw [hvalue] at hrealises
      exact hrealises

/-- The steps reported are those that fail, and do so in a way that is reported. -/
theorem IsTreeOf.reported_iff (ht : IsTreeOf v.domain limit s t)
    (hv : v.IsNumericOn (Transcript.ofText s).lexemes) (token : Token) (reason : String) :
    (∃ line, evaluate v.domain limit s =
        .error (.diagnosed (.ofEval token line reason))) ↔
      ∃ σ ∈ t.steps v, ∃ m, σ.outcome = .error m ∧
        Halt.ofMishap σ.token m = .step token reason := by
  constructor
  · rintro ⟨line, hline⟩
    obtain ⟨σ, hσ, m, hm⟩ := ht.exists_step hv hline
    refine ⟨σ, hσ, m, hm, ?_⟩
    have hrealises := evaluate_of_step ht hσ hm
    rw [hline] at hrealises
    exact hrealises.eq_step
  · rintro ⟨σ, hσ, m, hm, hreason⟩
    have hrealises := evaluate_of_step ht hσ hm
    rw [hreason] at hrealises
    exact hrealises

theorem eq_escaped_of_ofMishap {token : Token} {m : Mishap} {cause : Failure}
    (h : Halt.ofMishap token m = .escaped cause) : m = .escaped cause := by
  cases m with
  | escaped cause' => exact congrArg Mishap.escaped (Halt.escaped.inj h)
  | failure _ | complexResult | overflow => cases h

/-- Nothing but steps that escape fails without a report. -/
theorem IsTreeOf.escaped_iff (ht : IsTreeOf v.domain limit s t)
    (hv : v.IsNumericOn (Transcript.ofText s).lexemes) (cause : Failure) :
    evaluate v.domain limit s = .error (.escaped cause) ↔
      cause = .intTooLarge ∧ ∃ σ ∈ t.steps v, σ.Escapes v := by
  constructor
  · intro h
    obtain ⟨σ, hσ, m, hm⟩ := ht.exists_step hv h
    have hrealises := evaluate_of_step ht hσ hm
    rw [h] at hrealises
    have hmishap := eq_escaped_of_ofMishap hrealises.eq_escaped
    -- a step on numbers that is not reported is one that escapes
    have hruns := t.runs v
    have hnumbers := (hruns.keeps_numbers hv ht.literals).2 σ hσ
    have hsettled := Step.outcome_settled hv (hruns.isOf σ hσ) hnumbers
    rw [hm] at hsettled
    obtain ⟨hcause, hescapes⟩ := hsettled cause hmishap
    exact ⟨hcause, σ, hσ, hescapes⟩
  · rintro ⟨rfl, σ, hσ, hescapes⟩
    exact evaluate_of_step ht hσ (Step.outcome_of_escapes hescapes)

end Sources

/-- **Arithmetic in a vocabulary of numbers.** An evaluation gives a number or a diagnostic, or it
fails as its supply does, unless the source names a function that escapes. A source with a tree is
reported at a step exactly if this step of the tree fails and does not escape, and it fails without
a report exactly if a step escapes. -/
theorem evaluate_arithmetic {v : Vocabulary} {s : Supply} (limit : DepthLimit)
    (hv : v.IsNumericOn (Transcript.ofText s.text).lexemes) :
    v.Allows s (evaluateSupply v.domain limit s) ∧
    ∀ t, IsTreeOf v.domain limit s.text t →
      (∀ token reason, (∃ line, evaluate v.domain limit s.text =
          .error (.diagnosed (.ofEval token line reason))) ↔
        ∃ σ ∈ t.steps v, ∃ m, σ.outcome = .error m ∧
          Halt.ofMishap σ.token m = .step token reason) ∧
      ∀ cause, evaluate v.domain limit s.text = .error (.escaped cause) ↔
        cause = .intTooLarge ∧ ∃ σ ∈ t.steps v, σ.Escapes v :=
  ⟨allows_evaluateSupply hv, fun _ ht => ⟨ht.reported_iff hv, ht.escaped_iff hv⟩⟩

/-- The vocabulary of integers with a function that is infinite at all numbers. -/
def Vocabulary.infinite : Vocabulary where
  constants := []
  functions := [("f", fun _ => .ok (.value (double (1.0 / 0.0))))]
  literal := intLiteral

/-- It is one of numbers if the numbers among the lexemes are integers. -/
theorem Vocabulary.isNumericOn_infinite {lexemes : List Lexeme}
    (h : ∀ l ∈ lexemes, l.kind = .number → (readInt l.text).isOk = true) :
    infinite.IsNumericOn lexemes where
  literal l hl hkind := by
    have hread := h l hl hkind
    show ∃ n, Datum.int <$> readInt l.text = .ok (.number n)
    cases hn : readInt l.text with
    | error cause =>
        rw [hn] at hread
        cases hread
    | ok n => exact ⟨.int n, rfl⟩
  constant name d hd := nomatch hd
  function name f hf n := by
    obtain ⟨key, hmem⟩ := mem_of_lookup hf
    obtain rfl := (Prod.mk.inj (List.mem_singleton.1 hmem)).2
    exact ⟨_, rfl⟩

set_option maxRecDepth 10000 in
/-- At two its function is reported. -/
theorem evaluate_arithmetic_infinite : ∃ line,
    evaluate Vocabulary.infinite.domain .standard "f(2)".toList =
      .error (.diagnosed (.ofEval ⟨⟨.identifier, "f"⟩, ⟨1, 1⟩⟩ line "overflow")) := by
  have hscanned : Scanned "f(2)".toList [⟨⟨.identifier, "f"⟩, ⟨1, 1⟩⟩,
      ⟨⟨.leftParen, "("⟩, ⟨1, 2⟩⟩, ⟨⟨.number, "2"⟩, ⟨1, 3⟩⟩, ⟨⟨.rightParen, ")"⟩, ⟨1, 4⟩⟩] := by
    refine ⟨_, _, .token rfl ?_ ?_ (.token rfl ?_ ?_ (.token rfl ?_ ?_ (.token rfl ?_ ?_ .done))),
      rfl, rfl⟩
    all_goals decide
  have htree : IsTreeOf Vocabulary.infinite.domain .standard "f(2)".toList
      (.call ⟨⟨.identifier, "f"⟩, ⟨1, 1⟩⟩ (.number ⟨⟨.number, "2"⟩, ⟨1, 3⟩⟩)) :=
    ⟨_, hscanned, .sum_of_operand (.call rfl rfl rfl (.sum_of_operand (.number rfl)) rfl),
      by decide⟩
  have hnumeric : Vocabulary.infinite.IsNumericOn (Transcript.ofText "f(2)".toList).lexemes := by
    rw [Transcript.lexemes_eq_plain, hscanned.transcript.1]
    exact Vocabulary.isNumericOn_infinite (by decide)
  let σ : Step := ⟨⟨⟨.identifier, "f"⟩, ⟨1, 1⟩⟩, [.number (.int 2)], .ok (double (1.0 / 0.0))⟩
  have hrange : (Number.int 2).InRange := Number.inRange_int_iff.2 (by decide +kernel)
  have houtcome : σ.outcome = .error .overflow := by
    have hoperands : ∀ n ∈ [Number.int 2], n.InRange := by
      simpa using hrange
    have hinfinite : (1.0 / 0.0 : Float).isFinite = false := by decide +kernel
    exact Datum.settle_of_not_isFinite hoperands hinfinite
  obtain ⟨-, htrees⟩ := evaluate_arithmetic (s := .ofText "f(2)".toList) .standard hnumeric
  obtain ⟨hreported, -⟩ := htrees _ htree
  exact (hreported _ _).2 ⟨σ, List.mem_singleton_self _, .overflow, houtcome, rfl⟩

set_option maxRecDepth 10000 in
/-- Where the argument is beyond the doubles, the failure to make it one escapes. -/
theorem evaluate_infinite_escaped :
    Vocabulary.infinite.IsNumericOn (Transcript.ofText "f(10^400)".toList).lexemes ∧
    evaluate Vocabulary.infinite.domain .standard "f(10^400)".toList =
      .error (.escaped .intTooLarge) := by
  have hscanned : Scanned "f(10^400)".toList [⟨⟨.identifier, "f"⟩, ⟨1, 1⟩⟩,
      ⟨⟨.leftParen, "("⟩, ⟨1, 2⟩⟩, ⟨⟨.number, "10"⟩, ⟨1, 3⟩⟩, ⟨⟨.power, "^"⟩, ⟨1, 5⟩⟩,
      ⟨⟨.number, "400"⟩, ⟨1, 6⟩⟩, ⟨⟨.rightParen, ")"⟩, ⟨1, 9⟩⟩] := by
    refine ⟨_, _, .token rfl ?_ ?_ (.token rfl ?_ ?_ (.token rfl ?_ ?_ (.token rfl ?_ ?_
      (.token rfl ?_ ?_ (.token rfl ?_ ?_ .done))))), rfl, rfl⟩
    all_goals decide
  have htree : IsTreeOf Vocabulary.infinite.domain .standard "f(10^400)".toList
      (.call ⟨⟨.identifier, "f"⟩, ⟨1, 1⟩⟩ (.binary .power ⟨⟨.power, "^"⟩, ⟨1, 5⟩⟩
        (.number ⟨⟨.number, "10"⟩, ⟨1, 3⟩⟩) (.number ⟨⟨.number, "400"⟩, ⟨1, 6⟩⟩))) :=
    ⟨_, hscanned, .sum_of_operand (.call rfl rfl rfl (.chain (.chain (.positive (.number rfl)
      (.power rfl (.positive (.number rfl) .powersEnd))) .tailEnd) .tailEnd) rfl), by decide⟩
  have hescapes : Step.Escapes Vocabulary.infinite ⟨⟨⟨.identifier, "f"⟩, ⟨1, 1⟩⟩,
      [.number (.int (Number.intPower 10 400))], .ok (double (1.0 / 0.0))⟩ := by
    refine ⟨_, _, rfl, rfl, fun hrange => ?_, 1.0 / 0.0, rfl, by decide +kernel⟩
    exact absurd (Number.inRange_int_iff.1 hrange) (by decide +kernel)
  constructor
  · rw [Transcript.lexemes_eq_plain, hscanned.transcript.1]
    exact Vocabulary.isNumericOn_infinite (by decide)
  · refine evaluate_of_step htree ?_ (Step.outcome_of_escapes hescapes)
    rw [Tree.steps_call (f := fun _ => .ok (.value (double (1.0 / 0.0)))) rfl
      (a := .number (.int (Number.intPower 10 400))) rfl]
    exact List.mem_append_right _ (List.mem_singleton_self _)

end Calculator
