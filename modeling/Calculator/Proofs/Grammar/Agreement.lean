import Calculator.Proofs.Grammar.Recognition

/-!
# Evaluation in one pass and by trees

The rules compute values while they read, without a syntax tree. Where the lexemes are a part of
an expression with a tree that nests within the levels left, they come to the value of the tree and
stop behind the part, or they fail at the same step as the tree, or with the same failure
(`Derives.agrees`). For whole expressions see `evaluateLexemes_agrees`.

The statement about a tail of a chain takes the outcome of what stands before it as given, so that
a failure there is passed on in the same way on both sides.
-/

set_option autoImplicit false

namespace Calculator

variable {V : Type}

/-! ## Agreement of outcomes -/

/-- The value of a tree and the outcome of a rule agree: on the value, with the lexemes of `us`
left; or on the token of the step that failed, which is among the tokens of `ts`, and the reason;
or on the failure. -/
inductive Agrees (ts us : List Token) : Except Halt V → Except Fault (V × List Lexeme) → Prop where
  | value (v : V) : Agrees ts us (.ok v) (.ok (v, plain us))
  | step {token : Token} {after : List Token} {ahead : List Lexeme} {reason : String} :
      token :: after <:+ ts →
      Agrees ts us (.error (.step token reason))
        (.error (.step (plain (token :: after)) ahead reason))
  | escaped (cause : Failure) : Agrees ts us (.error (.escaped cause)) (.error (.escaped cause))

namespace Agrees

variable {ts us vs : List Token}

theorem bind {x : Except Halt V} {y : Except Fault (V × List Lexeme)} {f : V → Except Halt V}
    {g : V × List Lexeme → Except Fault (V × List Lexeme)} (h : Agrees ts us x y)
    (hfg : ∀ v, Agrees ts vs (f v) (g (v, plain us))) : Agrees ts vs (x >>= f) (y >>= g) := by
  cases h with
  | value v => exact hfg v
  | step hsuffix => exact .step hsuffix
  | escaped cause => exact .escaped cause

/-- A rule that only moves on keeps the agreement. -/
theorem moveOn {x : Except Halt V} {y : Except Fault (V × List Lexeme)}
    {g : V × List Lexeme → Except Fault (V × List Lexeme)} (h : Agrees ts us x y)
    (hg : ∀ v, g (v, plain us) = .ok (v, plain vs)) : Agrees ts vs x (y >>= g) := by
  cases h with
  | value v =>
      show Agrees ts vs (.ok v) (g (v, plain us))
      rw [hg v]
      exact .value v
  | step hsuffix => exact .step hsuffix
  | escaped cause => exact .escaped cause

/-- A step fails in the same way in a tree and in a rule. -/
theorem applied {o : Token} {after : List Token} (ho : o :: after <:+ ts) (x : Except Mishap V) :
    Agrees ts us (x.mapError (.ofMishap o)) (applied (plain (o :: after)) (plain us) x) := by
  cases x with
  | ok v => exact .value v
  | error m =>
      cases m with
      | failure cause => exact .step ho
      | complexResult => exact .step ho
      | overflow => exact .step ho
      | escaped cause => exact .escaped cause

theorem negated {v : V} {d : Domain V} :
    Agrees ts us ((d.negate v).mapError .escaped)
      (negatedIf d true v >>= fun v => pure (v, plain us)) := by
  rw [negatedIf]
  cases d.negate v with
  | ok w => exact .value w
  | error cause => exact .escaped cause

end Agrees

/-! ## Tokens that stop a part -/

theorem head_plain {ts : List Token} {l : Lexeme} (h : l ∈ (plain ts).head?) :
    ∃ t ∈ ts.head?, l = t.toLexeme := by
  cases ts with
  | nil => cases h
  | cons t ts =>
      obtain rfl := Option.some.inj h
      exact ⟨t, rfl, rfl⟩

theorem opensGroup_eq_false {ts : List Token} (h : Stops .operand ts) :
    opensGroup (plain ts) = false := by
  cases ts with
  | nil => rfl
  | cons t ts => exact stops_cons_iff.1 h

theorem clear_of_stops_tail {p : Precedence} {left : Tree} {ts : List Token}
    (h : Stops (.tail p left) ts) : Clear p.operator? (plain ts) := by
  intro l hl
  obtain ⟨t, ht, rfl⟩ := head_plain hl
  cases hop : p.operator? t.kind with
  | none => rfl
  | some op =>
      have hstop := h t ht
      rw [extends_tail_of_operator hop] at hstop
      cases hstop

theorem powersWith_of_stops {power : V → Rule V} {v : V} {base : Tree} {ts : List Token}
    (h : Stops (.powers base) ts) : powersWith power v (plain ts) = .ok (v, plain ts) := by
  cases ts with
  | nil => rfl
  | cons o ts =>
      have ho : o.kind ≠ .power := by
        intro ho
        rw [stops_cons_iff, ho] at h
        cases h
      simp only [plain_cons, powersWith, if_neg ho]

/-! ## The rules on derived tokens -/

section Rules

variable (d : Domain V)

/-- What the rule of a part does on the tokens `ts` of a tree `t` that leave `us`, with `n` levels
left; `all` are the tokens of the whole source. A tail goes on from an outcome that agrees with the
tree before it, and powers go on from one that agrees with their base. -/
def Part.Agrees (n : Nat) (all : List Token) : Part → List Token → Tree → List Token → Prop
  | operand, ts, t, us =>
    Calculator.Agrees all us (t.value d) (Calculator.operand d .complete n (plain ts))
  | factor, ts, t, us =>
    Calculator.Agrees all us (t.value d) (linkedRule d .complete n .product (plain ts))
  | powers base, ts, t, us => ∀ y, Calculator.Agrees all ts (base.value d) y →
    Calculator.Agrees all us (t.value d)
      (y >>= fun r => Calculator.powers d .complete n r.1 r.2)
  | chain p, ts, t, us =>
    Calculator.Agrees all us (t.value d)
      (Calculator.chain d .complete p.operator? (linkedRule d .complete n p) (plain ts))
  | tail p left, ts, t, us => ∀ y bound, ts.length ≤ bound.length →
    Calculator.Agrees all ts (left.value d) y →
    Calculator.Agrees all us (t.value d) (y >>= fun r =>
      chainFrom d .complete p.operator? (linkedRule d .complete n p) bound r.1 r.2)

variable {d}

theorem linked_agrees {n : Nat} {all : List Token} {p : Precedence} {ts us : List Token}
    {t : Tree} (h : p.linked.Agrees d n all ts t us) :
    Agrees all us (t.value d) (linkedRule d .complete n p (plain ts)) := by
  cases p with
  | sum =>
      rw [linkedRule, term_eq]
      exact h
  | product => exact h

theorem expression_agrees {n : Nat} {all ts us : List Token} {t : Tree}
    (h : (Part.chain .sum).Agrees d n all ts t us) :
    Agrees all us (t.value d)
      (expression d .complete (operand d .complete n) (powers d .complete n) (plain ts)) := by
  rw [expression_eq]
  exact h

/-- An operator and its right operand agree with the tree that joins them to the tree before. -/
theorem link_agrees {all ts us : List Token} {rule : Rule V} {op : Operation} {o : Token} {v : V}
    {right : Tree} (ho : o :: ts <:+ all) (h : Agrees all us (right.value d) (rule (plain ts))) :
    Agrees all us (right.value d >>= fun w => (d.operate op v w).mapError (.ofMishap o))
      (link d .complete rule op v (plain (o :: ts)) (plain ts)) := by
  rw [link, advance_complete]
  exact h.bind fun w => Agrees.applied ho (d.operate op v w)

section Cases

variable {n : Nat} {all ts us vs : List Token}

/-! ### Chains -/

theorem chain_agrees {p : Precedence} {left t : Tree} (hleft : p.linked.Agrees d n all ts left us)
    (htail : (Part.tail p left).Agrees d n all us t vs) :
    (Part.chain p).Agrees d n all ts t vs := by
  have h := linked_agrees hleft
  -- the bound of the loop is what the first link leaves
  cases h₀ : linkedRule d .complete n p (plain ts) with
  | error f =>
      rw [h₀] at h
      have hloop := htail _ (plain us) (by simp [plain]) h
      simp only [Part.Agrees, Calculator.chain, h₀]
      exact hloop
  | ok r =>
      rw [h₀] at h
      have hr : r.2 = plain us := by
        generalize left.value d = y at h
        cases h
        rfl
      have hloop := htail _ (plain us) (by simp [plain]) h
      simp only [Part.Agrees, Calculator.chain, h₀]
      rw [← hr] at hloop
      exact hloop

theorem tailEnd_agrees {p : Precedence} {left : Tree} (hs : Stops (.tail p left) ts) :
    (Part.tail p left).Agrees d n all ts left ts := by
  intro y bound hbound hy
  apply hy.moveOn
  intro v
  exact chainFrom_of_clear d .complete (clear_of_stops_tail hs)

theorem tailStep_agrees {p : Precedence} {left right t : Tree} {o : Token} {op : Operation}
    (hop : p.operator? o.kind = some op) (hall : o :: ts <:+ all) (hus : us <:+ ts)
    (hright : p.linked.Agrees d n all ts right us)
    (htail : (Part.tail p (.binary op o left right)).Agrees d n all us t vs) :
    (Part.tail p left).Agrees d n all (o :: ts) t vs := by
  intro y bound hbound hy
  -- one turn of the loop, from the outcome `y` to that of the joined tree
  have hjoined := hy.bind (f := fun v => right.value d >>= fun w =>
      (d.operate op v w).mapError (.ofMishap o))
    (g := fun r => link d .complete (linkedRule d .complete n p) op r.1
      (plain (o :: ts)) (plain ts))
    (fun v => link_agrees hall (linked_agrees hright))
  obtain ⟨b, bound, rfl⟩ : ∃ b rest, bound = b :: rest := by
    cases bound with
    | nil => simp at hbound
    | cons b rest => exact ⟨b, rest, rfl⟩
  have hlen : us.length ≤ bound.length :=
    Nat.le_trans hus.length_le (Nat.le_of_succ_le_succ hbound)
  have hrest := htail _ bound hlen hjoined
  have hy' := hy
  generalize left.value d = z at hy'
  -- a failure before the operator is passed on, without a turn of the loop
  cases hy' with
  | value v =>
      show Agrees all vs (t.value d) (chainFrom d .complete p.operator? _ (b :: bound) v
        (o.toLexeme :: plain ts))
      rw [chainFrom_cons_of_some d .complete hop]
      exact hrest
  | step hsuffix => exact hrest
  | escaped cause => exact hrest

/-! ### Factors -/

theorem signAt_of_minus {m : Token} (hm : m.kind = .minus) :
    signAt .complete (plain (m :: ts)) = .ok (true, plain ts) := by
  rw [plain_cons]
  simp only [signAt, if_pos hm, advance_complete]
  rfl

theorem signAt_of_operand {x : Lexicon} {t : Tree} (h : Derives x .operand ts t us) :
    signAt .complete (plain ts) = .ok (false, plain ts) := by
  cases ts with
  | nil => rfl
  | cons m ts =>
      rw [plain_cons]
      simp only [signAt, if_neg h.operand_ne_minus]

/-- An operand with its powers, behind a sign or none. -/
theorem body_agrees {base t : Tree} (hbase : (Part.operand).Agrees d n all ts base us)
    (hpowers : (Part.powers base).Agrees d n all us t vs) :
    Agrees all vs (t.value d) (operand d .complete n (plain ts) >>= fun r =>
      powers d .complete n r.1 r.2) :=
  hpowers _ hbase

theorem positive_agrees {base t : Tree} (hoperand : Derives d.lexicon .operand ts base us)
    (hbase : (Part.operand).Agrees d n all ts base us)
    (hpowers : (Part.powers base).Agrees d n all us t vs) :
    (Part.factor).Agrees d n all ts t vs := by
  have hsame := (body_agrees hbase hpowers).moveOn
    (g := fun r => negatedIf d false r.1 >>= fun v => pure (v, r.2)) fun v => rfl
  simp only [bind_assoc] at hsame
  simp only [Part.Agrees, linkedRule, factor, signAt_of_operand hoperand]
  exact hsame

theorem negative_agrees {m : Token} {base t : Tree} (hm : m.kind = .minus)
    (hbase : (Part.operand).Agrees d n all ts base us)
    (hpowers : (Part.powers base).Agrees d n all us t vs) :
    (Part.factor).Agrees d n all (m :: ts) (.negative t) vs := by
  have hnegated := (body_agrees hbase hpowers).bind (f := fun v => (d.negate v).mapError .escaped)
    (g := fun r => negatedIf d true r.1 >>= fun v => pure (v, r.2)) fun v => Agrees.negated
  simp only [bind_assoc] at hnegated
  simp only [Part.Agrees, linkedRule, factor, signAt_of_minus hm]
  exact hnegated

theorem powersEnd_agrees {base : Tree} (hs : Stops (.powers base) ts) :
    (Part.powers base).Agrees d n all ts base ts := by
  intro y hy
  apply hy.moveOn
  intro v
  rw [powers_eq]
  exact powersWith_of_stops hs

theorem power_agrees {o : Token} {base exponent : Tree} (ho : o.kind = .power)
    (hall : o :: ts <:+ all) (h : (Part.factor).Agrees d n all ts exponent us) :
    (Part.powers base).Agrees d (n + 1) all (o :: ts) (.binary .power o base exponent) us := by
  intro y hy
  apply hy.bind
  intro v
  rw [powers_eq]
  simp only [plain_cons, powersWith, if_pos ho, powerRule]
  rw [powerWith_eq_link]
  exact link_agrees hall h

/-! ### Operands -/

theorem number_agrees {l : Token} (hl : l.kind = .number) :
    (Part.operand).Agrees d n all (l :: ts) (.number l) ts := by
  simp only [Part.Agrees]
  rw [operand_eq, plain_cons, operandWith_number d .complete hl, advance_complete]
  simp only [Tree.value]
  cases d.literal l.text with
  | error cause => exact .escaped cause
  | ok v => exact .value v

theorem constant_agrees {name : Token} {v : V} (hname : name.kind = .identifier)
    (hv : d.constant? name.text = some v) (hs : Stops .operand ts) :
    (Part.operand).Agrees d n all (name :: ts) (.constant name) ts := by
  simp only [Part.Agrees]
  rw [operand_eq, plain_cons, operandWith_identifier d .complete hname, advance_complete]
  show Agrees all ts _ (if opensGroup (plain ts) then _ else _)
  rw [opensGroup_eq_false hs]
  simp only [Bool.false_eq_true, if_false, constantAt, Tree.value, hv]
  exact .value v

theorem groupRule_agrees {l r : Token} {t : Tree}
    (h : (Part.chain .sum).Agrees d n all ts t (r :: us)) (hr : r.kind = .rightParen) :
    Agrees all us (t.value d) (groupRule d .complete (n + 1) (plain (l :: ts))) := by
  simp only [groupRule, groupWith, plain_cons, List.drop_succ_cons, List.drop_zero,
    advance_complete]
  apply (expression_agrees h).moveOn
  intro v
  simp only [plain_cons, if_pos hr, advance_complete]
  rfl

theorem group_agrees {l r : Token} {t : Tree} (hl : l.kind = .leftParen)
    (h : (Part.chain .sum).Agrees d n all ts t (r :: us)) (hr : r.kind = .rightParen) :
    (Part.operand).Agrees d (n + 1) all (l :: ts) (.group t) us := by
  simp only [Part.Agrees]
  rw [operand_eq, plain_cons, operandWith_leftParen d .complete hl]
  exact groupRule_agrees (l := l) h hr

theorem call_agrees {name l r : Token} {t : Tree} {f : V → Except Mishap V}
    (hname : name.kind = .identifier) (hf : d.function? name.text = some f)
    (hl : l.kind = .leftParen) (hall : name :: l :: ts <:+ all)
    (h : (Part.chain .sum).Agrees d n all ts t (r :: us)) (hr : r.kind = .rightParen) :
    (Part.operand).Agrees d (n + 1) all (name :: l :: ts) (.call name t) us := by
  have hgroup := groupRule_agrees (l := l) h hr
  have hopen : opensGroup (plain (l :: ts)) = true := by simp [opensGroup, hl]
  simp only [Part.Agrees]
  rw [operand_eq, plain_cons, operandWith_identifier d .complete hname, advance_complete]
  show Agrees all us _ (if opensGroup (plain (l :: ts)) then _ else _)
  rw [hopen]
  simp only [if_true, callAt, Tree.value, hf]
  exact hgroup.bind fun v => Agrees.applied hall (f v)

end Cases

/-! ### All parts -/

/-- **The rules agree with the tree** of every part that is derived within the levels left and
ends before a token that cannot go on with it. -/
theorem Derives.agrees {all : List Token} {p : Part} {ts us : List Token} {t : Tree}
    (h : Derives d.lexicon p ts t us) :
    ∀ n, t.nesting ≤ n → Stops p us → ts <:+ all → p.Agrees d n all ts t us := by
  induction h with
  | chain h₁ h₂ ih₁ ih₂ =>
      intro n hn hs hall
      have hleft := Nat.le_trans (h₂.nesting_before_le _ rfl) hn
      exact chain_agrees (ih₁ n hleft (h₂.stops_before_tail hs) hall)
        (ih₂ n hn hs (h₁.suffix.trans hall))
  | tailEnd => exact fun n hn hs hall => tailEnd_agrees hs
  | @tailStep p left o op ts right us t vs hop h₁ h₂ ih₁ ih₂ =>
      intro n hn hs hall
      have hall' : ts <:+ all := (List.suffix_cons o ts).trans hall
      -- the operator takes no level, and the tree nests at least as deep as its right operand
      have hnest := Nat.le_trans (h₂.nesting_before_le _ rfl) hn
      have hright := Nat.le_trans (Tree.right_nesting_le op o left right) hnest
      exact tailStep_agrees hop hall h₁.suffix (ih₁ n hright (h₂.stops_before_tail hs) hall')
        (ih₂ n hn hs (h₁.suffix.trans hall'))
  | positive h₁ h₂ ih₁ ih₂ =>
      intro n hn hs hall
      have hbase := Nat.le_trans (h₂.nesting_before_le _ rfl) hn
      exact positive_agrees h₁ (ih₁ n hbase (h₂.stops_before_powers hs) hall)
        (ih₂ n hn hs (h₁.suffix.trans hall))
  | negative hm h₁ h₂ ih₁ ih₂ =>
      intro n hn hs hall
      have hall' := (List.suffix_cons _ _).trans hall
      have hbase := Nat.le_trans (h₂.nesting_before_le _ rfl) hn
      exact negative_agrees hm (ih₁ n hbase (h₂.stops_before_powers hs) hall')
        (ih₂ n hn hs (h₁.suffix.trans hall'))
  | powersEnd => exact fun n hn hs hall => powersEnd_agrees hs
  | power ho h₁ ih₁ =>
      intro n hn hs hall
      -- the exponent is read with one level less
      have hexponent := Nat.le_trans (Nat.le_max_right _ _) hn
      rcases n with _ | n
      · exact absurd hexponent (Nat.not_succ_le_zero _)
      · exact power_agrees ho hall (ih₁ n (Nat.le_of_succ_le_succ hexponent) hs
          ((List.suffix_cons _ _).trans hall))
  | number hl => exact fun n hn hs hall => number_agrees hl
  | constant hname hconstant =>
      intro n hn hs hall
      obtain ⟨v, hv⟩ := Option.isSome_iff_exists.1 hconstant
      exact constant_agrees hname hv hs
  | group hl h₁ hr ih₁ =>
      intro n hn hs hall
      rcases n with _ | n
      · exact absurd hn (Nat.not_succ_le_zero _)
      · exact group_agrees hl (ih₁ n (Nat.le_of_succ_le_succ hn) (stops_rightParen hr)
          ((List.suffix_cons _ _).trans hall)) hr
  | call hname hfunction hl h₁ hr ih₁ =>
      intro n hn hs hall
      obtain ⟨f, hf⟩ := Option.isSome_iff_exists.1 hfunction
      have hall' := ((List.suffix_cons _ _).trans (List.suffix_cons _ _)).trans hall
      rcases n with _ | n
      · exact absurd hn (Nat.not_succ_le_zero _)
      · exact call_agrees hname hf hl hall (ih₁ n (Nat.le_of_succ_le_succ hn)
          (stops_rightParen hr) hall') hr

/-- A whole expression that nests within the limit has the value of its tree, or no value for the
same reason. -/
theorem evaluateLexemes_agrees {limit : Nat} {ts : List Token} {t : Tree}
    (h : Derives d.lexicon (.chain .sum) ts t []) (hn : t.nesting ≤ limit) :
    Agrees ts [] (t.value d)
      ((·, []) <$> evaluateLexemes d .complete limit (plain ts)) := by
  have hagrees : Agrees ts [] (t.value d)
      (expression d .complete (operand d .complete limit) (powers d .complete limit)
        (plain ts)) :=
    expression_agrees (h.agrees limit hn (stops_nil _) (List.suffix_refl _))
  rw [evaluateLexemes, advance_complete, map_bind]
  show Agrees ts [] (t.value d) ((·, []) <$> (expression d .complete _ _ (plain ts) >>= _))
  rw [map_bind]
  apply hagrees.moveOn
  intro v
  rfl

end Rules

end Calculator
