import Calculator.Proofs.Evaluation.Performed

/-!
# Overflows

A step overflows if its operands are finite numbers and its result is a double that is not finite.
It is reported as an overflow at its operator, unless a fraction is among its operands: fractions do
not count as finite where results are looked at, so that such a result passes
(`Step.outcome_of_overflows`). Where all literals, constants and values of functions are finite
numbers, a value that is not finite therefore comes from an operator with a fraction as an operand
(`evaluate_overflowing`).
-/

set_option autoImplicit false

namespace Calculator

/-- A number that is neither infinite nor NaN. -/
def Datum.IsFinite (d : Datum) : Prop := ∃ n : Number, d = .number n ∧ n.isFinite = true

/-- A vocabulary of finite numbers, as far as the numbers among some lexemes are concerned: these
are finite numbers if they can be read, constants are, and functions give them at finite arguments,
if they give anything. -/
structure Vocabulary.IsFiniteOn (v : Vocabulary) (lexemes : List Lexeme) : Prop where
  literal : ∀ l ∈ lexemes, l.kind = .number → ∀ d, v.literal l.text = .ok d → d.IsFinite
  constant : ∀ name d, v.value? name = some d → d.IsFinite
  function : ∀ name f, v.functions.lookup name = some f → ∀ a : Datum, a.IsFinite →
    ∀ o, f a = .ok o → ∃ d, o = .value d ∧ d.IsFinite

/-- Functions give finite numbers at finite arguments. -/
theorem Vocabulary.IsFiniteOn.function_result {v : Vocabulary} {lexemes : List Lexeme}
    (hv : v.IsFiniteOn lexemes) {name : String} {f : Function} {a d : Datum}
    (hf : v.functions.lookup name = some f) (ha : a.IsFinite) (h : f.result a = .ok d) :
    d.IsFinite := by
  unfold Function.result at h
  split at h
  · cases h
  · cases h
  · rename_i d' hvalue
    obtain ⟨e, heq, he⟩ := hv.function name f hf a ha _ hvalue
    obtain rfl := Outcome.value.inj heq
    obtain rfl := Except.ok.inj h
    exact he

/-! ## Steps that overflow -/

namespace Step

/-- The operands are finite numbers, but the result is a double that is not finite. -/
def Overflows (σ : Step) : Prop :=
  (∀ d ∈ σ.operands, d.IsFinite) ∧ ∃ x : Float, σ.result = .ok (double x) ∧ x.isFinite = false

/-- A fraction is among the operands. -/
def HasRatio (σ : Step) : Prop := ∃ q : Rat, .number (.ratio q) ∈ σ.operands

variable {σ : Step} {v : Vocabulary} {lexemes : List Lexeme}

/-- An operator that overflows is reported, unless a fraction is among its operands. With one its
result passes. -/
theorem outcome_of_operation {token : Token} {op : Operation} {a b : Datum}
    (hσ : σ = ⟨token, [a, b], Datum.operate op a b⟩) (h : σ.Overflows) :
    (σ.HasRatio → σ.outcome = σ.result) ∧ (¬ σ.HasRatio → σ.outcome = .error .overflow) := by
  subst hσ
  obtain ⟨hfinite, x, hresult, hx⟩ := h
  obtain ⟨m, rfl, hm⟩ := hfinite a List.mem_cons_self
  obtain ⟨n, rfl, hn⟩ := hfinite b (List.mem_cons_of_mem _ List.mem_cons_self)
  have hresult : Datum.operate op (.number m) (.number n) = .ok (double x) := hresult
  obtain ⟨k, hk, heq⟩ := Number.exists_of_operate hresult
  obtain rfl : Number.float x = k := Datum.number.inj heq
  have hstep : Datum.step op (.number m) (.number n) =
      if m.isPlain = true ∧ n.isPlain = true then .error .overflow else .ok (double x) := by
    have hfloat : (Number.float x).isFinite = false := hx
    rw [Datum.step_number, hk]
    show (if _ ∧ _ then _ else _) = _
    simp only [hfloat, true_and]
    rfl
  show (_ → Datum.step op (.number m) (.number n) = Datum.operate op (.number m) (.number n)) ∧
    (_ → Datum.step op (.number m) (.number n) = _)
  constructor
  · rintro ⟨q, hq⟩
    -- the fraction is one of the two operands
    have hplain : ¬ (m.isPlain = true ∧ n.isPlain = true) := by
      rintro ⟨hm, hn⟩
      rcases List.mem_cons.1 hq with hq | hq
      · obtain rfl := Datum.number.inj hq
        cases hm
      · obtain rfl := Datum.number.inj (List.mem_singleton.1 hq)
        cases hn
    rw [hstep, if_neg hplain, hresult]
  · intro hratio
    have hplain {k : Number} (hk : k.isFinite = true)
        (hmem : .number k ∈ [Datum.number m, .number n]) : k.isPlain = true := by
      refine Number.isPlain_of_isFinite hk ?_
      rintro q rfl
      exact hratio ⟨q, hmem⟩
    rw [hstep, if_pos ⟨hplain hm List.mem_cons_self,
      hplain hn (List.mem_cons_of_mem _ List.mem_cons_self)⟩]

/-- No function overflows in a vocabulary of finite numbers. -/
theorem not_overflows_of_function (hv : v.IsFiniteOn lexemes) {token : Token} {f : Function}
    {a : Datum} (hf : v.functions.lookup token.text = some f) :
    ¬ Overflows ⟨token, [a], f.result a⟩ := by
  rintro ⟨hfinite, x, hresult, hx⟩
  obtain ⟨n, hn, hnumber⟩ := hv.function_result hf (hfinite a List.mem_cons_self) hresult
  obtain rfl := Datum.number.inj hn
  have htrue : x.isFinite = true := hnumber
  rw [hx] at htrue
  cases htrue

/-- **A step that overflows** is reported as an overflow, unless a fraction is among its operands.
With one its result passes. -/
theorem outcome_of_overflows (hv : v.IsFiniteOn lexemes) (hσ : σ.IsOf v) (h : σ.Overflows) :
    (σ.HasRatio → σ.outcome = σ.result) ∧ (¬ σ.HasRatio → σ.outcome = .error .overflow) := by
  cases hσ with
  | operator => exact outcome_of_operation rfl h
  | function hf => exact absurd h (not_overflows_of_function hv hf)

/-- On finite numbers a step has a number as its result, if any. -/
theorem result_number (hv : v.IsFiniteOn lexemes) {d : Datum} (hσ : σ.IsOf v)
    (hfinite : ∀ a ∈ σ.operands, a.IsFinite) (h : σ.result = .ok d) :
    ∃ k : Number, d = .number k := by
  cases hσ with
  | @operator token op a b =>
      obtain ⟨m, rfl, -⟩ := hfinite a List.mem_cons_self
      obtain ⟨n, rfl, -⟩ := hfinite b (List.mem_cons_of_mem _ List.mem_cons_self)
      obtain ⟨k, -, hk⟩ := Number.exists_of_operate h
      exact ⟨k, hk⟩
  | function hf =>
      obtain ⟨k, hk, -⟩ := hv.function_result hf (hfinite _ List.mem_cons_self) h
      exact ⟨k, hk⟩

/-- A step on finite numbers gives a finite number, if anything, unless a fraction among them has
let another result pass. -/
theorem isFinite_of_outcome (hv : v.IsFiniteOn lexemes) {d : Datum} (hσ : σ.IsOf v)
    (hfinite : ∀ a ∈ σ.operands, a.IsFinite) (h : σ.outcome = .ok d) :
    d.IsFinite ∨ σ.Overflows ∧ σ.HasRatio := by
  cases hresult : σ.result with
  | error mishap =>
      rw [outcome, hresult] at h
      cases h
  | ok r =>
      obtain ⟨k, rfl⟩ := result_number hv hσ hfinite hresult
      cases hk : k.isFinite with
      | true =>
          rw [outcome, hresult] at h
          have hsettle : Datum.settle σ.operands (.number k) = .ok d := h
          rw [Datum.settle_of_isFinite _ hk] at hsettle
          exact .inl ⟨k, (Except.ok.inj hsettle).symm, hk⟩
      | false =>
          obtain ⟨x, rfl⟩ := Number.exists_float_of_not_isFinite hk
          have hoverflows : σ.Overflows := ⟨hfinite, x, hresult, hk⟩
          by_cases hratio : σ.HasRatio
          · exact .inr ⟨hoverflows, hratio⟩
          · -- without a fraction the step would have failed
            rw [(outcome_of_overflows hv hσ hoverflows).2 hratio] at h
            cases h

end Step

/-! ## Values -/

namespace Tree

variable {v : Vocabulary} {lexemes : List Lexeme}

/-- A step with a fraction as an operand is performed whose result is not finite. -/
def Leaks (v : Vocabulary) (t : Tree) : Prop := ∃ σ ∈ t.steps v, σ.Overflows ∧ σ.HasRatio

theorem isFinite_negate {a d : Datum} (ha : a.IsFinite) (h : Datum.negate a = .ok d) :
    d.IsFinite := by
  obtain ⟨n, rfl, hn⟩ := ha
  obtain rfl := Except.ok.inj h
  exact ⟨n.negate, rfl, Number.isFinite_negate hn⟩

/-- **A value is a finite number, or an infinite result has passed on the way to it.** -/
theorem isFinite_or_leaks (hv : v.IsFiniteOn lexemes) {t : Tree} {d : Datum}
    (hliterals : ∀ l ∈ t.literals, l.toLexeme ∈ lexemes ∧ l.kind = .number)
    (h : t.value v.domain = .ok d) : d.IsFinite ∨ t.Leaks v := by
  by_cases hleaks : t.Leaks v
  · exact .inr hleaks
  · refine .inl (((t.runs v).keeps (P := Datum.IsFinite) ?_ hv.constant ?_ ?_).1 d h)
    · intro l hl
      obtain ⟨hmem, hkind⟩ := hliterals l hl
      exact hv.literal _ hmem hkind
    · exact fun a d => isFinite_negate
    · intro σ hσ hfinite d hd
      -- no step that is performed lets a result pass that is not finite
      refine (Step.isFinite_of_outcome hv ((t.runs v).isOf σ hσ) hfinite hd).resolve_right ?_
      exact fun hleak => hleaks ⟨σ, hσ, hleak⟩

end Tree

/-- **Overflows in a vocabulary of finite numbers.** A step whose result is not finite is reported
at its operator, unless a fraction is among its operands: then the result passes. So a value is a
finite number, if no such step is performed on the way to it. -/
theorem evaluate_overflowing {v : Vocabulary} {s : Supply} (limit : DepthLimit)
    (hv : v.IsFiniteOn (Transcript.ofText s.text).lexemes) :
    (∀ d, evaluateSupply v.domain limit s = .ok d →
      ∃ t, IsTreeOf v.domain limit s.text t ∧ (d.IsFinite ∨ t.Leaks v)) ∧
    ∀ t, IsTreeOf v.domain limit s.text t → ∀ σ ∈ t.steps v, σ.Overflows →
      (σ.HasRatio → σ.outcome = σ.result) ∧
      (¬ σ.HasRatio → ∃ line, evaluate v.domain limit s.text =
        .error (.diagnosed (.ofEval σ.token line "overflow"))) := by
  constructor
  · intro d hd
    have hvalue := evaluate_of_evaluateSupply hd
    obtain ⟨t, ht⟩ := exists_tree_of_evaluate hvalue
    exact ⟨t, ht, Tree.isFinite_or_leaks hv ht.literals (ht.evaluate_eq_ok_iff.1 hvalue)⟩
  · intro t ht σ hσ hoverflows
    obtain ⟨hpasses, hfails⟩ := Step.outcome_of_overflows hv ((t.runs v).isOf σ hσ) hoverflows
    exact ⟨hpasses, fun hratio => evaluate_of_step ht hσ (hfails hratio)⟩

/-- The vocabulary of one large constant. -/
def Vocabulary.large (literal : String → Except Failure Datum) : Vocabulary where
  constants := [("big", .number (.float 1e308))]
  functions := []
  literal := literal

/-- It is one of finite numbers if the literals are. -/
theorem Vocabulary.isFiniteOn_large {literal : String → Except Failure Datum}
    (hliteral : ∀ text d, literal text = .ok d → d.IsFinite) (lexemes : List Lexeme) :
    (large literal).IsFiniteOn lexemes where
  literal l _ _ d hd := hliteral l.text d hd
  constant name d hd := by
    unfold value? at hd
    split at hd
    · cases hd
    · cases hd
    · rename_i hlookup
      obtain rfl := Option.some.inj hd
      obtain ⟨key, hmem⟩ := mem_of_lookup hlookup
      obtain rfl := (Prod.mk.inj (List.mem_singleton.1 hmem)).2
      exact ⟨_, rfl, by decide +kernel⟩
  function name f hf := nomatch hf

theorem isFinite_of_intLiteral {text : String} {d : Datum}
    (h : Vocabulary.intLiteral text = .ok d) : d.IsFinite := by
  have h : Datum.int <$> readInt text = .ok d := h
  cases hread : readInt text with
  | error cause =>
      rw [hread] at h
      cases h
  | ok n =>
      rw [hread] at h
      exact ⟨.int n, (Except.ok.inj h).symm, rfl⟩

theorem isFinite_of_ratioLiteral {text : String} {d : Datum}
    (h : Vocabulary.ratioLiteral text = .ok d) : d.IsFinite := by
  have h : (Datum.number ∘ Number.ratio) <$> readRatio text = .ok d := h
  cases hread : readRatio text with
  | error cause =>
      rw [hread] at h
      cases h
  | ok q =>
      rw [hread] at h
      exact ⟨.ratio q, (Except.ok.inj h).symm, rfl⟩

set_option maxRecDepth 10000 in
theorem isTreeOf_large (literal : String → Except Failure Datum) :
    IsTreeOf (Vocabulary.large literal).domain .standard "big*10".toList
      (.binary .multiply ⟨⟨.multiply, "*"⟩, ⟨1, 4⟩⟩ (.constant ⟨⟨.identifier, "big"⟩, ⟨1, 1⟩⟩)
        (.number ⟨⟨.number, "10"⟩, ⟨1, 5⟩⟩)) := by
  refine ⟨_, ⟨_, _, .token rfl ?_ ?_ (.token rfl ?_ ?_ (.token rfl ?_ ?_ .done)), rfl, rfl⟩,
    .chain (.chain (.positive (.constant rfl rfl) .powersEnd)
      (.tailStep rfl (.positive (.number rfl) .powersEnd) .tailEnd)) .tailEnd, by decide⟩
  all_goals decide

/-- Ten times the constant is beyond the doubles, whatever kind of number ten is. -/
theorem overflows_large {n : Number} (hn : n.isFinite = true)
    (hresult : ∀ x, Number.operate .multiply (.float x) n = .ok (.float (x * 10))) :
    Step.Overflows ⟨⟨⟨.multiply, "*"⟩, ⟨1, 4⟩⟩, [double 1e308, .number n],
      Datum.operate .multiply (double 1e308) (.number n)⟩ := by
  refine ⟨?_, 1e308 * 10, ?_, by decide +kernel⟩
  · intro d hd
    rcases List.mem_cons.1 hd with rfl | hd
    · exact ⟨_, rfl, by decide +kernel⟩
    · obtain rfl := List.mem_singleton.1 hd
      exact ⟨n, rfl, hn⟩
  · show Datum.operate .multiply (.number (.float 1e308)) (.number n) = _
    rw [Number.operate_number, hresult]
    rfl

/-- As an integer ten has the overflow reported at the operator. -/
theorem evaluate_overflowing_large : ∃ line,
    evaluate (Vocabulary.large Vocabulary.intLiteral).domain .standard "big*10".toList =
      .error (.diagnosed (.ofEval ⟨⟨.multiply, "*"⟩, ⟨1, 4⟩⟩ line "overflow")) := by
  obtain ⟨-, hreported⟩ := evaluate_overflowing (s := .ofText "big*10".toList) .standard
    (Vocabulary.isFiniteOn_large (fun _ _ => isFinite_of_intLiteral) _)
  have hoverflows := overflows_large (n := .int 10) rfl fun _ => rfl
  refine (hreported _ (isTreeOf_large _) _ (List.mem_singleton_self _) hoverflows).2 ?_
  rintro ⟨q, hq⟩
  rcases List.mem_cons.1 hq with hq | hq
  · cases hq
  · cases List.mem_singleton.1 hq

/-- As a fraction ten makes the value of a source infinite, though all numbers are finite. -/
theorem evaluate_large_ratio :
    (Vocabulary.large Vocabulary.ratioLiteral).IsFiniteOn
      (Transcript.ofText "big*10".toList).lexemes ∧
    evaluate (Vocabulary.large Vocabulary.ratioLiteral).domain .standard "big*10".toList =
      .ok (double (1e308 * 10)) ∧
    (1e308 * 10 : Float).isInf = true := by
  refine ⟨Vocabulary.isFiniteOn_large (fun _ _ => isFinite_of_ratioLiteral) _, ?_,
    by decide +kernel⟩
  have hoverflows := overflows_large (n := .ratio 10) rfl fun _ => rfl
  have hpasses := (Step.outcome_of_operation rfl hoverflows).1
    ⟨10, List.mem_cons_of_mem _ (List.mem_singleton_self _)⟩
  rw [(isTreeOf_large Vocabulary.ratioLiteral).evaluate_eq_ok_iff,
    Tree.value_binary_of_operands (a := double 1e308) (b := .number (.ratio 10)) rfl rfl,
    Step.value, hpasses]
  rfl

end Calculator
