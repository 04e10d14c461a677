import Calculator.Proofs.Evaluation.OnePass
import Calculator.Proofs.Expression.Levels
import Calculator.Proofs.Grammar.Depths

/-!
# The nesting limit

The limit is exact: where nothing else fails, a source has its value if and only if its syntax tree
nests within the limit, and is reported at the first token beyond the limit if it does not. And it
is invisible otherwise: an evaluation that does not end at the limit has the same outcome under
every higher limit (`evaluate_nesting`).
-/

set_option autoImplicit false

namespace Calculator

variable {V : Type}

/-- The outcome is a report that the nesting limit has been reached. -/
def AtLimit (limit : DepthLimit) (outcome : Except Trouble V) : Prop :=
  ∃ token line, outcome =
    .error (.diagnosed (.ofParse token line (some (Expectation.depth.text limit.levels))))

/-- The wording of every other expectation is without the limit. -/
theorem Expectation.text_eq {expected : Expectation} (h : expected ≠ .depth) (n m : Nat) :
    expected.text n = expected.text m := by
  cases expected with
  | depth => exact absurd rfl h
  | operand | closing | operatorOrEnd => rfl
  | argument | constant | operatorAfter | function => rfl

/-- Every other fault is reported in the same way under every limit. -/
theorem Transcript.report_eq (t : Transcript) {fault : Fault} (n m : Nat)
    (h : ∀ site ahead, fault ≠ .misplaced site ahead .depth) :
    t.report n fault = t.report m fault := by
  cases fault with
  | lexical => rfl
  | misplaced site ahead expected =>
      have hexpected : expected ≠ .depth := by
        rintro rfl
        exact h site ahead rfl
      simp only [report, Expectation.text_eq hexpected n m]
  | step site ahead reason => rfl
  | escaped cause => rfl

/-- An evaluation that does not end at the limit has the same outcome under a higher one. -/
theorem Transcript.evaluate_eq_of_le (d : Domain V) {limit limit' : DepthLimit} (t : Transcript)
    (hle : limit.levels ≤ limit'.levels) (h : ¬ AtLimit limit (t.evaluate d limit)) :
    t.evaluate d limit' = t.evaluate d limit := by
  have hextends := evaluateLexemes_extends d t.endingKind hle t.lexemes
  unfold evaluate at h ⊢
  generalize evaluateLexemes d t.endingKind limit.levels t.lexemes = run at h hextends ⊢
  generalize evaluateLexemes d t.endingKind limit'.levels t.lexemes = run' at hextends ⊢
  cases hextends with
  | tooDeep => exact absurd ⟨_, _, rfl⟩ h
  | same =>
      cases run with
      | ok v => rfl
      | error fault =>
          refine congrArg Except.error (t.report_eq limit'.levels limit.levels ?_)
          rintro site ahead rfl
          exact h ⟨_, _, rfl⟩

/-- A source whose tree nests too deep is reported at the first token beyond the limit. -/
theorem evaluate_of_limit_lt {d : Domain V} {limit : DepthLimit} {s : List Char}
    {ts : List Token} {t : Tree} {v : V} (hts : Scanned s ts)
    (h : Derives d.lexicon (.chain .sum) ts t []) (hv : t.value d = .ok v)
    (hn : limit.levels < t.nesting) :
    ∃ token after line, FirstBeyond limit.levels ts t.depths (token :: after) ∧
      evaluate d limit s =
        .error (.diagnosed (.ofParse token line (some (Expectation.depth.text limit.levels)))) := by
  obtain ⟨htokens, hcomplete⟩ := hts.transcript
  obtain ⟨site, hbeyond, hrun⟩ := evaluateLexemes_overruns h hv hn
  obtain ⟨front, -, -, hfront, -, -, -, token, htoken, -⟩ := id hbeyond
  obtain ⟨after, rfl⟩ : ∃ after, site = token :: after := by
    cases site with
    | nil => cases htoken
    | cons o after => exact ⟨after, by rw [Option.some.inj htoken]⟩
  have hsuffix : token :: after <:+ (Transcript.ofText s).tokens := ⟨front, by rw [htokens, hfront]⟩
  obtain ⟨line, hline⟩ := located_of_plain_suffix hsuffix (plain (token :: after))
  refine ⟨token, after, line, hbeyond, ?_⟩
  unfold evaluate Transcript.evaluate
  rw [hcomplete, Transcript.lexemes_eq_plain, htokens, hrun]
  show Except.error ((Transcript.ofText s).report limit.levels
    (.misplaced (plain (token :: after)) (plain (token :: after)) .depth)) = _
  rw [Transcript.report, hline]

/-- **The nesting limit is exact, and invisible otherwise.** A source with a syntax tree none of
whose steps fails has its value if and only if the tree nests within the limit; else it is reported
at the first token whose level is beyond the limit. Whatever the source delivers, an evaluation
that does not end at the limit has the same outcome under every higher limit. -/
theorem evaluate_nesting (d : Domain V) :
    (∀ (limit : DepthLimit) s ts t v, Scanned s ts → Derives d.lexicon (.chain .sum) ts t [] →
      t.value d = .ok v →
      (evaluate d limit s = .ok v ↔ t.nesting ≤ limit.levels) ∧
      (¬ t.nesting ≤ limit.levels →
        ∃ token after line, FirstBeyond limit.levels ts t.depths (token :: after) ∧
          evaluate d limit s = .error (.diagnosed
            (.ofParse token line (some (Expectation.depth.text limit.levels)))))) ∧
    ∀ (limit limit' : DepthLimit) (s : Supply), limit.levels ≤ limit'.levels →
      ¬ AtLimit limit (evaluateSupply d limit s) →
        evaluateSupply d limit' s = evaluateSupply d limit s := by
  constructor
  · intro limit s ts t v hts h hv
    have hbeyond (hn : ¬ t.nesting ≤ limit.levels) :=
      evaluate_of_limit_lt hts h hv (Nat.lt_of_not_le hn)
    refine ⟨⟨?_, ?_⟩, hbeyond⟩
    · intro hvalue
      refine Classical.byContradiction fun hn => ?_
      obtain ⟨token, after, line, -, herror⟩ := hbeyond hn
      rw [hvalue] at herror
      cases herror
    · intro hn
      have hrealises := IsTreeOf.realises ⟨ts, hts, h, hn⟩
      rw [hv] at hrealises
      exact hrealises
  · intro limit limit' s hle h
    exact Transcript.evaluate_eq_of_le d _ hle h

/-- The limit that allows a single level. -/
def DepthLimit.single : DepthLimit := ⟨1, by decide, by decide⟩

set_option maxRecDepth 10000 in
/-- With a single level, a group within a group is reported, and two groups side by side are not:
they have the outcome that they have with more levels. -/
theorem nesting_singleLevel :
    (∃ ts, Scanned "((e))".toList ts ∧ ∃ token after line,
      FirstBeyond 1 ts [1, 2] (token :: after) ∧
      evaluate Vocabulary.standard.domain .single "((e))".toList = .error (.diagnosed
        (.ofParse token line (some (Expectation.depth.text 1))))) ∧
    (∃ v, evaluate Vocabulary.standard.domain .single "(e)-(e)".toList = .ok v) ∧
    evaluateSupply Vocabulary.standard.domain .standard (.ofText "(e)-(e)".toList) =
      evaluateSupply Vocabulary.standard.domain .single (.ofText "(e)-(e)".toList) := by
  obtain ⟨hexact, hinvisible⟩ := evaluate_nesting Vocabulary.standard.domain
  constructor
  · obtain ⟨ts, hts, hderives⟩ : ∃ ts, Scanned "((e))".toList ts ∧
        Derives Vocabulary.standard.domain.lexicon (.chain .sum) ts
          (.group (.group (.constant ⟨⟨.identifier, "e"⟩, ⟨1, 3⟩⟩))) [] := by
      refine ⟨_, ⟨_, _, .token rfl ?_ ?_ (.token rfl ?_ ?_ (.token rfl ?_ ?_ (.token rfl ?_ ?_
        (.token rfl ?_ ?_ .done)))), rfl, rfl⟩, .sum_of_operand (.group rfl (.sum_of_operand
          (.group rfl (.sum_of_operand (.constant rfl rfl)) rfl)) rfl)⟩
      any_goals decide
    obtain ⟨-, hbeyond⟩ := hexact .single _ ts _ _ hts hderives rfl
    exact ⟨ts, hts, hbeyond (by decide)⟩
  · obtain ⟨ts, hts, hderives⟩ : ∃ ts, Scanned "(e)-(e)".toList ts ∧
        Derives Vocabulary.standard.domain.lexicon (.chain .sum) ts
          (.binary .subtract ⟨⟨.minus, "-"⟩, ⟨1, 4⟩⟩
            (.group (.constant ⟨⟨.identifier, "e"⟩, ⟨1, 2⟩⟩))
            (.group (.constant ⟨⟨.identifier, "e"⟩, ⟨1, 6⟩⟩))) [] := by
      refine ⟨_, ⟨_, _, .token rfl ?_ ?_ (.token rfl ?_ ?_ (.token rfl ?_ ?_ (.token rfl ?_ ?_
        (.token rfl ?_ ?_ (.token rfl ?_ ?_ (.token rfl ?_ ?_ .done)))))), rfl, rfl⟩,
        .chain (.chain (.positive (.group rfl (.sum_of_operand (.constant rfl rfl)) rfl) .powersEnd)
          .tailEnd) (.tailStep rfl (.chain (.positive (.group rfl
            (.sum_of_operand (.constant rfl rfl)) rfl) .powersEnd) .tailEnd) .tailEnd)⟩
      any_goals decide
    have hvalue := (hexact .single _ ts _ _ hts hderives rfl).1.2 (by decide)
    refine ⟨⟨_, hvalue⟩, hinvisible .single .standard _ (by decide) ?_⟩
    rintro ⟨token, line, herror⟩
    cases hvalue.symm.trans herror

end Calculator
