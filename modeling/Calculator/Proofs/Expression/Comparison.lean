import Calculator.Proofs.Grammar.Recognition

/-!
# Two runs of the rules

The rules are run over the same lexemes by two domains, with more levels in the second run. The
second run comes to the outcome of the first, unless the first ends in a fault of a class that is
spared (`Upholds`). It is enough that the domains compute alike and differ in how they resolve a
name only where the first one comes to such a fault (`Domain.Upholds`), and that running out of
levels is such a fault where the second run has more of them. The runs are compared rule by rule;
the rules for operands and powers are compared by induction on the fewer levels
(`operand_powers_uphold`), and so are whole sequences of lexemes (`evaluateLexemes_upholds`).
-/

set_option autoImplicit false

namespace Calculator

variable {V α β : Type} {Spared : Fault → Prop}

/-! ## Outcomes -/

/-- The second outcome is the first one, unless the first is a fault that is spared. -/
inductive Upholds (Spared : Fault → Prop) : Except Fault α → Except Fault α → Prop where
  | spared {fault y} : Spared fault → Upholds Spared (.error fault) y
  | same {x} : Upholds Spared x x

theorem Upholds.trans {x y z : Except Fault α} (hxy : Upholds Spared x y)
    (hyz : Upholds Spared y z) : Upholds Spared x z := by
  cases hxy with
  | spared hfault => exact .spared hfault
  | same => exact hyz

theorem Upholds.bind {x y : Except Fault α} {f g : α → Except Fault β} (h : Upholds Spared x y)
    (hfg : ∀ a, Upholds Spared (f a) (g a)) : Upholds Spared (x >>= f) (y >>= g) := by
  cases h with
  | spared hfault => exact .spared hfault
  | same =>
      cases x with
      | error fault => exact .same
      | ok a => exact hfg a

/-- Where the first part is the same, only the second one can differ. -/
theorem Upholds.after (x : Except Fault α) {f g : α → Except Fault β}
    (hfg : ∀ a, Upholds Spared (f a) (g a)) : Upholds Spared (x >>= f) (x >>= g) :=
  Upholds.bind .same hfg

/-! ## Domains -/

/-- The second domain computes as the first one does, and resolves names as it does unless that is
a fault that is spared. -/
structure Domain.Upholds (Spared : Fault → Prop) (d d' : Domain V) : Prop where
  literal : d'.literal = d.literal
  negate : d'.negate = d.negate
  operate : d'.operate = d.operate
  constantAt : ∀ site ahead name,
    Calculator.Upholds Spared (constantAt d site ahead name) (constantAt d' site ahead name)
  callAt : ∀ group site ahead name,
    Calculator.Upholds Spared (callAt d group site ahead name) (callAt d' group site ahead name)

theorem Domain.Upholds.refl (d : Domain V) : d.Upholds Spared d where
  literal := rfl
  negate := rfl
  operate := rfl
  constantAt _ _ _ := .same
  callAt _ _ _ _ := .same

/-! ## Rules -/

/-- The second rule upholds the first one on all lexemes. -/
def RuleUpholds (Spared : Fault → Prop) (rule rule' : Rule V) : Prop :=
  ∀ s, Upholds Spared (rule s) (rule' s)

section Rules

variable {d d' : Domain V} {ending : Ending} {rule rule' : Rule V}

theorem link_upholds (hd : d.Upholds Spared d') (h : RuleUpholds Spared rule rule')
    (op : Operation) (v : V) (site rest : List Lexeme) :
    Upholds Spared (link d ending rule op v site rest) (link d' ending rule' op v site rest) := by
  apply Upholds.after
  intro rest
  apply (h rest).bind
  intro r
  rw [hd.operate]
  exact .same

theorem chainFrom_upholds (hd : d.Upholds Spared d') (h : RuleUpholds Spared rule rule')
    (operator? : TokenKind → Option Operation) :
    ∀ (bound : List Lexeme) (v : V),
      RuleUpholds Spared (chainFrom d ending operator? rule bound v)
        (chainFrom d' ending operator? rule' bound v) := by
  intro bound
  induction bound with
  | nil => exact fun v s => .same
  | cons b bound ih =>
      intro v s
      cases s with
      | nil => exact .same
      | cons l rest =>
          cases hop : operator? l.kind with
          | none =>
              rw [chainFrom_of_clear d ending (clear_cons_iff.2 hop),
                chainFrom_of_clear d' ending (clear_cons_iff.2 hop)]
              exact .same
          | some op =>
              rw [chainFrom_cons_of_some d ending hop, chainFrom_cons_of_some d' ending hop]
              exact (link_upholds hd h op v _ rest).bind fun r => ih r.1 r.2

theorem chain_upholds (hd : d.Upholds Spared d') (h : RuleUpholds Spared rule rule')
    (operator? : TokenKind → Option Operation) :
    RuleUpholds Spared (chain d ending operator? rule) (chain d' ending operator? rule') := by
  intro s
  exact (h s).bind fun r => chainFrom_upholds hd h operator? r.2 r.1 r.2

theorem groupWith_upholds (h : RuleUpholds Spared rule rule') :
    RuleUpholds Spared (groupWith ending rule) (groupWith ending rule') := by
  intro s
  apply Upholds.after
  intro rest
  exact (h rest).bind fun r => .same

theorem callAt_upholds (hd : d.Upholds Spared d') (h : RuleUpholds Spared rule rule')
    (site ahead : List Lexeme) (name : String) :
    Upholds Spared (callAt d rule site ahead name) (callAt d' rule' site ahead name) := by
  -- the group changes first, then the domain
  apply Upholds.trans (y := callAt d rule' site ahead name) ?_ (hd.callAt rule' site ahead name)
  rw [callAt, callAt]
  cases d.function? name with
  | none => exact .same
  | some f => exact (h ahead).bind fun r => .same

/-- Operands differ only in the rule for groups and in how names are resolved. -/
theorem operandWith_upholds (hd : d.Upholds Spared d') (h : RuleUpholds Spared rule rule') :
    RuleUpholds Spared (operandWith d ending rule) (operandWith d' ending rule') := by
  intro s
  cases s with
  | nil => exact .same
  | cons l rest =>
      by_cases hother : l.kind ≠ .leftParen ∧ l.kind ≠ .identifier ∧ l.kind ≠ .number
      · rw [operandWith_other d ending hother, operandWith_other d' ending hother]
        exact .same
      · cases hl : l.kind with
        | leftParen =>
            rw [operandWith_leftParen d ending hl, operandWith_leftParen d' ending hl]
            exact h _
        | identifier =>
            rw [operandWith_identifier d ending hl, operandWith_identifier d' ending hl]
            apply Upholds.after
            intro ahead
            split
            · exact callAt_upholds hd h _ _ _
            · exact hd.constantAt _ _ _
        | number =>
            rw [operandWith_number d ending hl, operandWith_number d' ending hl, hd.literal]
            exact .same
        | plus | minus | multiply | divide | power | rightParen | endOfInput | endOfLine =>
            simp [hl] at hother

variable {powers powers' : V → Rule V}

theorem factor_upholds (hd : d.Upholds Spared d') (h : RuleUpholds Spared rule rule')
    (hp : ∀ v, RuleUpholds Spared (powers v) (powers' v)) :
    RuleUpholds Spared (factor d ending rule powers) (factor d' ending rule' powers') := by
  intro s
  apply Upholds.after
  intro r
  apply (h r.2).bind
  intro r
  apply (hp r.1 r.2).bind
  intro r
  simp only [negatedIf, hd.negate]
  exact .same

theorem expression_upholds (hd : d.Upholds Spared d') (h : RuleUpholds Spared rule rule')
    (hp : ∀ v, RuleUpholds Spared (powers v) (powers' v)) :
    RuleUpholds Spared (expression d ending rule powers) (expression d' ending rule' powers') :=
  chain_upholds hd (chain_upholds hd (factor_upholds hd h hp) multiplicative?) additive?

/-- Powers differ only in the rule for a power, which starts at its operator. -/
theorem powersWith_upholds {power power' : V → Rule V} (base : V)
    (h : ∀ l rest, Upholds Spared (power base (l :: rest)) (power' base (l :: rest))) :
    RuleUpholds Spared (powersWith power base) (powersWith power' base) := by
  intro s
  cases s with
  | nil => exact .same
  | cons l rest =>
      rw [powersWith, powersWith]
      split
      · exact h l rest
      · exact .same

end Rules

/-! ## Whole runs -/

section Runs

variable {d d' : Domain V} (hd : d.Upholds Spared d') (ending : Ending)

include hd

/-- **The rules for operands and powers uphold those with no more levels**, if more levels are
either not there or spare the faults of running out of them. -/
theorem operand_powers_uphold :
    ∀ {n m : Nat}, n ≤ m → (n < m → ∀ s, Spared (.misplaced s s .depth)) →
      RuleUpholds Spared (operand d ending n) (operand d' ending m) ∧
        ∀ v, RuleUpholds Spared (powers d ending n v) (powers d' ending m v) := by
  intro n
  induction n with
  | zero =>
      intro m _ hdepth
      -- without a level, every group and every power is too deep, in the second run or as a fault
      -- that is spared
      have hdeep : ∀ (rule : Rule V), (m = 0 → rule = tooDeep) →
          RuleUpholds Spared tooDeep rule := by
        intro rule hrule s
        rcases Nat.eq_zero_or_pos m with hm | hm
        · rw [hrule hm]
          exact .same
        · exact .spared (hdepth hm s)
      rw [operand_eq, operand_eq, powers_eq, powers_eq]
      constructor
      · apply operandWith_upholds hd
        apply hdeep
        rintro rfl
        rfl
      · intro v
        refine powersWith_upholds v fun l rest => hdeep _ ?_ (l :: rest)
        rintro rfl
        rfl
  | succ n ih =>
      intro m hm hdepth
      obtain ⟨m, rfl⟩ : ∃ k, m = k + 1 := Nat.exists_eq_succ_of_ne_zero (by omega)
      obtain ⟨hoperand, hpowers⟩ :=
        ih (Nat.le_of_succ_le_succ hm) fun hlt => hdepth (Nat.succ_lt_succ hlt)
      rw [operand_eq, operand_eq, powers_eq, powers_eq]
      constructor
      · exact operandWith_upholds hd (groupWith_upholds (expression_upholds hd hoperand hpowers))
      · intro v
        refine powersWith_upholds v fun l rest => ?_
        simp only [powerRule, powerWith_eq_link]
        exact link_upholds hd (factor_upholds hd hoperand hpowers) .power v _ rest

/-- A whole sequence of lexemes comes to the same in the second run, unless the first has come to a
fault that is spared. -/
theorem evaluateLexemes_upholds {n m : Nat} (h : n ≤ m)
    (hdepth : n < m → ∀ s, Spared (.misplaced s s .depth)) (lexemes : List Lexeme) :
    Upholds Spared (evaluateLexemes d ending n lexemes) (evaluateLexemes d' ending m lexemes) := by
  obtain ⟨hoperand, hpowers⟩ := operand_powers_uphold hd ending h hdepth
  apply Upholds.after
  intro s
  exact (expression_upholds hd hoperand hpowers s).bind fun r => .same

end Runs

end Calculator
