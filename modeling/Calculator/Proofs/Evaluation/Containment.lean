import Calculator.Proofs.Evaluation.Located
import Calculator.Proofs.Number.Literal
import Calculator.Proofs.Number.Steps

/-!
# Containment

Evaluation in the standard vocabulary gives a double or a diagnostic of the scan, of the rules or of
a step, and nothing else comes out of it (`evaluate_standard`). All values on the way are doubles
(`doubles_kept`), and they are finite as long as the literals are: an infinite value or
NaN comes from a literal beyond the range of doubles.
-/

set_option autoImplicit false

namespace Calculator

/-! ## Literals of a source -/

/-- Every number that is scanned can be read as a double, which is not NaN. -/
theorem Cursor.readFloat_of_scan {c : Cursor} {t : Token} (h : c.scan.1 = .ok t)
    (hkind : t.kind = .number) : ∃ x, readFloat t.text = .ok x ∧ x.isNaN = false := by
  obtain ⟨-, ⟨-, hinput, -⟩ | ⟨kind, text, hitem, hkind', htext⟩⟩ :=
    Cursor.token_of_scan h (by simp [hkind])
  · rw [hkind] at hinput
    cases hinput
  · obtain rfl := hkind'.symm.trans hkind
    have hstring : t.text = String.ofList text := by rw [← htext, String.ofList_toList]
    rw [item_read] at hitem
    generalize (cut isInlineBlank c.ahead).2 = s at hitem
    cases s with
    | nil => cases hitem
    | cons d s =>
        rcases readItem_eq_lexeme hitem with ⟨-, hidentifier, -⟩ | ⟨hdigit, -, rfl⟩ | ⟨hsymbol, -⟩
        · cases hidentifier
        · rw [hstring]
          exact readFloat_cutNumber hdigit s
        · unfold TokenKind.ofSymbol? at hsymbol
          split at hsymbol <;> cases hsymbol

/-- All numbers among the lexemes can be read as doubles. -/
def Readable (lexemes : List Lexeme) : Prop :=
  ∀ l ∈ lexemes, l.kind = .number → ∃ x, readFloat l.text = .ok x

/-- All numbers among the lexemes are finite doubles. -/
def FiniteLiterals (lexemes : List Lexeme) : Prop :=
  ∀ l ∈ lexemes, l.kind = .number → ∀ x, readFloat l.text = .ok x → x.isFinite

/-! ## Values on the way -/

/-- A fault that a diagnostic reports. -/
def Fault.Reported (f : Fault) : Prop := ∀ cause, f ≠ .escaped cause

/-- A double that is finite if the literals are. -/
def IsDouble (lexemes : List Lexeme) (v : Datum) : Prop :=
  ∃ x, v = double x ∧ (FiniteLiterals lexemes → x.isFinite)

section Kept

variable {lexemes : List Lexeme}

/-- A regular step keeps values doubles. -/
theorem doubles_applied {site ahead : List Lexeme} {finite : Prop} {y : Except Mishap Datum}
    (hy : Regular finite y) (hfinite : FiniteLiterals lexemes → finite) :
    Meets (fun r => IsDouble lexemes r.1) Fault.Reported (applied site ahead y) := by
  cases y with
  | ok v =>
      obtain ⟨x, hx, hxfinite⟩ := hy
      exact ⟨x, hx, fun h => hxfinite (hfinite h)⟩
  | error m =>
      -- a regular step lets no failure escape
      intro cause hcause
      cases m with
      | escaped cause' => exact hy cause' rfl
      | failure _ | complexResult | overflow => cases hcause

/-- Every step of the rules in the standard vocabulary keeps values doubles. -/
theorem doubles_kept (hreadable : Readable lexemes) :
    KeepsValues Vocabulary.standard.domain lexemes (IsDouble lexemes) Fault.Reported where
  lexical _ h := by cases h
  misplaced _ _ _ _ h := by cases h
  literal l hmem hl := by
    obtain ⟨x, hx⟩ := hreadable l hmem hl
    show Meets _ _ (((Datum.number ∘ Number.float) <$> readFloat l.text).mapError .escaped)
    rw [hx]
    exact ⟨x, rfl, fun hfinite => hfinite l hmem hl x hx⟩
  constant hv := by
    obtain ⟨x, rfl, hfinite⟩ := standard_constant hv
    exact ⟨x, rfl, fun _ => hfinite⟩
  negate hv := by
    obtain ⟨x, rfl, hfinite⟩ := hv
    rw [standard_negate]
    exact ⟨-x, rfl, fun h => isFinite_neg (hfinite h)⟩
  operate {_ _ _ op _ _} _ _ hv hw := by
    obtain ⟨x, rfl, hx⟩ := hv
    obtain ⟨y, rfl, hy⟩ := hw
    exact doubles_applied (regular_step op x y) fun h => ⟨hx h, hy h⟩
  apply _ _ hf hv := by
    obtain ⟨e, rfl⟩ := standard_function hf
    obtain ⟨x, rfl, hx⟩ := hv
    exact doubles_applied (regular_apply e x) hx

end Kept

/-- Lexemes whose numbers can be read have a double as their value, or a fault that is reported. -/
theorem evaluateLexemes_doubles {lexemes : List Lexeme} (hreadable : Readable lexemes)
    (ending : Ending) (limit : Nat) :
    Meets (IsDouble lexemes) Fault.Reported
      (evaluateLexemes Vocabulary.standard.domain ending limit lexemes) :=
  (doubles_kept hreadable).evaluateLexemes_meets ending limit

/-! ## Sources -/

theorem readFloat_of_delivered {s : List Char} {ts : List Token} {c : Cursor}
    (h : Delivers (.ofText s) ts c) {t : Token} (ht : t ∈ ts) (hkind : t.kind = .number) :
    ∃ x, readFloat t.text = .ok x ∧ x.isNaN = false := by
  obtain ⟨c₁, hscan, -⟩ := h.scanned t ht
  exact Cursor.readFloat_of_scan hscan hkind

/-- What holds of all tokens delivered holds of the lexemes of a supply. -/
theorem forall_lexemes_ofSupply {s : Supply} {P : Lexeme → Prop}
    (h : ∀ ts c, Delivers (.ofText s.text) ts c → ∀ t ∈ ts, P t.toLexeme) :
    ∀ l ∈ (Transcript.ofSupply s).lexemes, P l := by
  obtain ⟨c, hdel, -⟩ := (transcribes_ofSupply s).behind
  rw [Transcript.lexemes_eq_plain]
  intro l hl
  obtain ⟨t, ht, rfl⟩ := List.mem_map.1 hl
  exact h _ c hdel t ht

/-- What holds of all tokens delivered holds of the lexemes of a source. -/
theorem forall_lexemes_ofText {s : List Char} {P : Lexeme → Prop}
    (h : ∀ ts c, Delivers (.ofText s) ts c → ∀ t ∈ ts, P t.toLexeme) :
    ∀ l ∈ (Transcript.ofText s).lexemes, P l :=
  forall_lexemes_ofSupply (s := .ofText s) h

/-- The numbers of a supply can be read. -/
theorem readable_ofSupply (s : Supply) : Readable (Transcript.ofSupply s).lexemes := by
  apply forall_lexemes_ofSupply
  intro ts c hdel t ht hkind
  obtain ⟨x, hx, -⟩ := readFloat_of_delivered hdel ht hkind
  exact ⟨x, hx⟩

/-- A literal that is not a finite double is infinite. -/
theorem exists_infinite_literal {s : List Char}
    (h : ¬ FiniteLiterals (Transcript.ofText s).lexemes) :
    ∃ ts c, Delivers (.ofText s) ts c ∧ ∃ t ∈ ts, t.kind = .number ∧
      ∃ y, readFloat t.text = .ok y ∧ y.isInf := by
  refine Classical.byContradiction fun hnone => h ?_
  apply forall_lexemes_ofText
  intro ts c hdel t ht hkind y hy
  obtain ⟨x, hx, hnan⟩ := readFloat_of_delivered hdel ht hkind
  obtain rfl := Except.ok.inj (hx.symm.trans hy)
  cases hfinite : x.isFinite with
  | true => rfl
  | false =>
      -- it is not NaN either, so it is an infinite literal
      exact absurd ⟨ts, c, hdel, t, ht, hkind, x, hx, isInf_of_not_finite hfinite hnan⟩ hnone

/-- Only a failure of the supply itself escapes from its evaluation in the standard vocabulary. -/
theorem evaluateSupply_standard_escaped {limit : DepthLimit} {s : Supply} {cause : Failure}
    (h : evaluateSupply Vocabulary.standard.domain limit s = .error (.escaped cause)) :
    s.failure? = some cause := by
  rcases evaluateSupply_escaped h with hfailure | hrun
  · exact hfailure
  · have hdoubles := evaluateLexemes_doubles (readable_ofSupply s)
      (Transcript.ofSupply s).endingKind limit.levels
    rw [hrun] at hdoubles
    exact absurd rfl (hdoubles cause)

/-- No failure escapes from the evaluation of a text in the standard vocabulary. -/
theorem evaluate_standard_ne_escaped (limit : DepthLimit) (s : List Char) (cause : Failure) :
    evaluate Vocabulary.standard.domain limit s ≠ .error (.escaped cause) := by
  intro h
  cases evaluateSupply_standard_escaped (s := .ofText s) h

/-- A value in the standard vocabulary is a double, finite if the literals are. -/
theorem evaluateSupply_standard_isDouble {limit : DepthLimit} {s : Supply} {v : Datum}
    (h : evaluateSupply Vocabulary.standard.domain limit s = .ok v) :
    IsDouble (Transcript.ofSupply s).lexemes v := by
  have hdoubles := evaluateLexemes_doubles (readable_ofSupply s) (Transcript.ofSupply s).endingKind
    limit.levels
  rw [Transcript.evaluate_eq_ok h] at hdoubles
  exact hdoubles

/-- A value of a text in the standard vocabulary is a double, finite if the literals are. -/
theorem evaluate_standard_isDouble {limit : DepthLimit} {s : List Char} {v : Datum}
    (h : evaluate Vocabulary.standard.domain limit s = .ok v) :
    IsDouble (Transcript.ofText s).lexemes v :=
  evaluateSupply_standard_isDouble (s := .ofText s) h

/-- **Nothing but doubles and diagnostics comes out of an evaluation in the standard vocabulary.**
Every number of the source can be read as a double. If the value is not finite, a number of the
source is already infinite as a double; so the value is finite if they all are. -/
theorem evaluate_standard (limit : DepthLimit) (s : List Char) :
    (∀ ts c, Delivers (.ofText s) ts c → ∀ t ∈ ts, t.kind = .number →
      ∃ x, readFloat t.text = .ok x) ∧
    match evaluate Vocabulary.standard.domain limit s with
    | .ok v => ∃ x, v = .number (.float x) ∧
      ((∀ ts c, Delivers (.ofText s) ts c → ∀ t ∈ ts, t.kind = .number →
        ∀ y, readFloat t.text = .ok y → y.isFinite) → x.isFinite) ∧
      (x.isFinite = false → ∃ ts c, Delivers (.ofText s) ts c ∧ ∃ t ∈ ts, t.kind = .number ∧
        ∃ y, readFloat t.text = .ok y ∧ y.isInf)
    | .error (.diagnosed diag) => diag.stage = .scan ∨ (∃ token, diag.stage = .parse token) ∨
      ∃ token reason, diag.stage = .eval token reason
    | .error (.escaped _) => False := by
  constructor
  · intro ts c hdel t ht hkind
    obtain ⟨x, hx, -⟩ := readFloat_of_delivered hdel ht hkind
    exact ⟨x, hx⟩
  · cases h : evaluate Vocabulary.standard.domain limit s with
    | ok v =>
        -- the contract speaks of the lexemes, which are those of the tokens delivered
        obtain ⟨x, rfl, hfinite⟩ := evaluate_standard_isDouble h
        refine ⟨x, rfl, ?_, ?_⟩
        · intro hliterals
          exact hfinite (forall_lexemes_ofText hliterals)
        · intro hx
          refine exists_infinite_literal fun hliterals => ?_
          rw [hfinite hliterals] at hx
          cases hx
    | error trouble =>
        cases trouble with
        | escaped cause => exact evaluate_standard_ne_escaped limit s cause h
        | diagnosed diag =>
            cases evaluateSupply_diagnosed (s := .ofText s) h with
            | scan _ _ hscan => exact Or.inl (Cursor.stage_of_scan hscan)
            | misplaced _ _ => exact Or.inr (Or.inl ⟨_, rfl⟩)
            | step _ _ _ => exact Or.inr (Or.inr ⟨_, _, rfl⟩)

end Calculator
