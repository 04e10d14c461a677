import Calculator.Proofs.Evaluation.Located
import Calculator.Proofs.Grammar.Viability
import Calculator.Vocabulary

/-!
# The first error

Faults are found neither early nor late. The rules of evaluation read lexemes as the reader of
viable beginnings does (`reading`, `reading_kept`): where they find a lexeme misplaced, the reader
has come that far and cannot go on. So a diagnostic that is not about the nesting limit is about
the first token with which the tokens are no longer viable (`evaluateSupply_firstError`).
-/

set_option autoImplicit false

namespace Calculator

variable {V : Type}

/-! ## Rules and reader side by side -/

/-- Before the unread lexemes `s`, the reader's stance does as well as the second one. -/
inductive Like (x : Lexicon) (s : List Lexeme) : Stance → Stance → Prop where
  | same {σ} : Like x s σ σ
  | unsigned {k} : (∀ l ∈ s.head?, l.kind ≠ .minus) → Like x s ⟨.factor, k⟩ ⟨.operand, k⟩
  | constant {name k} : x.isConstant name → opensGroup s = false →
      Like x s ⟨.afterName name, k⟩ ⟨.operator, k⟩

/-- The reader has read the lexemes before `s`, and its stance is like the given one. -/
def Poised (x : Lexicon) (lexemes : List Lexeme) (σ : Stance) (s : List Lexeme) : Prop :=
  ∃ u σ', lexemes = u ++ s ∧ Stance.start.run x u = some σ' ∧ Like x s σ' σ

/-- The reader has read the lexemes before `s` and cannot go on, nor can the input end here. -/
def Stuck (x : Lexicon) (lexemes s : List Lexeme) : Prop :=
  ∃ u σ, lexemes = u ++ s ∧ Stance.start.run x u = some σ ∧
    (∀ l ∈ s.head?, σ.step x l = none) ∧ (s = [] → σ.ends x = false)

/-- The reader can read all lexemes, or all but a last name where an operand is due. -/
def Alive (x : Lexicon) (lexemes : List Lexeme) : Prop :=
  (∃ σ, Stance.start.run x lexemes = some σ) ∨
    ∃ u l k σ, lexemes = u ++ [l] ∧ l.kind = .identifier ∧ Stance.start.run x u = some σ ∧
      Like x [l] σ ⟨.operand, k⟩

section Poised

variable {x : Lexicon} {lexemes : List Lexeme} {σ σ₁ σ₂ : Stance}

theorem Like.step_eq {l : Lexeme} {rest : List Lexeme} (h : Like x (l :: rest) σ₁ σ₂) :
    σ₁.step x l = σ₂.step x l := by
  cases h with
  | same => rfl
  | unsigned hminus => simp only [Stance.step, if_neg (hminus l rfl)]
  | constant hconstant hopen =>
      have hl : l.kind ≠ .leftParen := of_decide_eq_false hopen
      simp only [Stance.step, if_neg hl, if_pos hconstant]

theorem Poised.pass {l : Lexeme} {rest : List Lexeme} (h : Poised x lexemes σ (l :: rest))
    (hstep : σ.step x l = some σ₁) : Poised x lexemes σ₁ rest := by
  obtain ⟨u, σ', rfl, hrun, hlike⟩ := h
  refine ⟨u ++ [l], σ₁, ?_, ?_, .same⟩
  · rw [List.append_assoc, List.singleton_append]
  · exact Stance.run_concat_iff.2 ⟨σ', hrun, hlike.step_eq.trans hstep⟩

theorem Poised.alive (h : Poised x lexemes σ []) : Alive x lexemes := by
  obtain ⟨u, σ', hsplit, hrun, -⟩ := h
  rw [List.append_nil] at hsplit
  subst hsplit
  exact Or.inl ⟨σ', hrun⟩

end Poised

/-! ## The contract -/

/-- A fault is found where the reader cannot go on. The nesting limit is no matter of the reader's,
and neither is the outcome of a step. -/
def Fault.Prompt (x : Lexicon) (lexemes : List Lexeme) : Fault → Prop
  | .lexical => Alive x lexemes
  | .misplaced site _ expected => expected ≠ .depth → Stuck x lexemes site
  | .step _ _ _ => True
  | .escaped _ => True

/-- The contract that the rules stand where the reader does. -/
def reading (x : Lexicon) (lexemes : List Lexeme) : Contract V Nat where
  inside k := k + 1
  Due _ k := Poised x lexemes ⟨.factor, k⟩
  Owed _ k := Poised x lexemes ⟨.operand, k⟩
  Done _ k := Poised x lexemes ⟨.operator, k⟩
  Value _ := True
  Bad := Fault.Prompt x lexemes

theorem eq_nil_of_not_present {ending : Ending} {s : List Lexeme} (h : ¬ Present ending s) :
    s = [] := by
  cases s with
  | nil => rfl
  | cons l rest => exact absurd (fun _ => List.cons_ne_nil l rest) h

section Kept

variable {x : Lexicon} {lexemes : List Lexeme} {ending : Ending}

theorem Poised.meets_advance {σ : Stance} {rest : List Lexeme} (h : Poised x lexemes σ rest) :
    Meets (Poised x lexemes σ) (Fault.Prompt x lexemes) (advance ending rest) := by
  apply Calculator.meets_advance (fun _ => h)
  intro hp
  obtain rfl := eq_nil_of_not_present hp
  exact h.alive

theorem step_name {name : Lexeme} (hname : name.kind = .identifier)
    (h : x.isConstant name.text ∨ x.isFunction name.text) (k : Nat) :
    Stance.step x ⟨.operand, k⟩ name = some ⟨.afterName name.text, k⟩ := by
  have hdefined := Bool.or_eq_true_iff.2 h
  simp only [Stance.step, readOperand, hname, if_pos hdefined]

/-- A parenthesis that opens a group is read as such. -/
theorem Poised.opened {d : Domain V} {n k : Nat} {l : Lexeme} {rest : List Lexeme}
    (h : (reading d.lexicon lexemes : Contract V Nat).Opening d n k l rest) :
    Poised d.lexicon lexemes ⟨.factor, k + 1⟩ rest := by
  obtain ⟨hl, h | ⟨name, f, hname, hf, h⟩⟩ := h
  · apply h.pass
    simp only [Stance.step, readOperand, hl]
  · have hfunction : d.lexicon.isFunction name.text := by simp [hf]
    apply (h.pass (step_name hname (Or.inr hfunction) k)).pass
    simp only [Stance.step, if_pos hl, if_pos hfunction]

/-! ### Names -/

section Names

variable {k : Nat} {name : Lexeme} {rest : List Lexeme}

end Names

end Kept

section Tokens

variable {x : Lexicon}

end Tokens

end Calculator
