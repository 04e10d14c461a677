import Calculator.Proofs.Expression.Places
import Calculator.Proofs.Grammar.Value

/-!
# What the rules accept

Wherever a rule of evaluation comes to a value, the lexemes that it has used up are a part of an
expression in the grammar, and the tree of that part nests no deeper than the rule has levels left
(`operand_powers_recognise`). So lexemes that have a value are a whole expression
(`evaluateLexemes_recognises`). Values play no part in this.
-/

set_option autoImplicit false

namespace Calculator

variable {V : Type}

/-- The lexemes of tokens. -/
def plain (ts : List Token) : List Lexeme := ts.map (·.toLexeme)

@[simp] theorem plain_nil : plain [] = [] := rfl

@[simp] theorem plain_cons (t : Token) (ts : List Token) :
    plain (t :: ts) = t.toLexeme :: plain ts := rfl

@[simp] theorem plain_append (ts us : List Token) : plain (ts ++ us) = plain ts ++ plain us :=
  List.map_append

theorem plain_eq_cons {ts : List Token} {l : Lexeme} {rest : List Lexeme}
    (h : plain ts = l :: rest) : ∃ t us, ts = t :: us ∧ l = t.toLexeme ∧ rest = plain us := by
  obtain ⟨t, us, hts, ht, hus⟩ := List.map_eq_cons_iff.1 h
  exact ⟨t, us, hts, ht.symm, hus.symm⟩

/-! ## Rules by levels -/

section Levels

variable (d : Domain V) (ending : Ending)

/-- The rule for groups with some levels left. -/
def groupRule : Nat → Rule V
  | 0 => tooDeep
  | n + 1 => groupWith ending (expression d ending (operand d ending n) (powers d ending n))

/-- The rule for a single power with some levels left. -/
def powerRule : Nat → V → Rule V
  | 0 => fun _ => tooDeep
  | n + 1 => powerWith d ending (operand d ending n) (powers d ending n)

theorem operand_eq (n : Nat) :
    operand d ending n = operandWith d ending (groupRule d ending n) := by
  cases n with
  | zero => simp only [operand, groupRule]
  | succ n => simp only [operand, groupRule]

theorem powers_eq (n : Nat) : powers d ending n = powersWith (powerRule d ending n) := by
  cases n with
  | zero => simp only [powers, powerRule]
  | succ n => simp only [powers, powerRule]

/-- The rule for products is a chain over the operators that the grammar has for them. -/
theorem term_eq (operand : Rule V) (powers : V → Rule V) :
    term d ending operand powers =
      chain d ending Precedence.product.operator? (factor d ending operand powers) := by
  rw [Precedence.operator?_product, term]

/-- The rule for sums is a chain over the operators that the grammar has for them. -/
theorem expression_eq (operand : Rule V) (powers : V → Rule V) :
    expression d ending operand powers =
      chain d ending Precedence.sum.operator? (term d ending operand powers) := by
  rw [Precedence.operator?_sum, expression]

/-- The rule for what stands between the operators of a precedence. -/
def linkedRule (n : Nat) : Precedence → Rule V
  | .sum => term d ending (operand d ending n) (powers d ending n)
  | .product => factor d ending (operand d ending n) (powers d ending n)

end Levels

/-! ## Recognition -/

/-- The unread lexemes `s` are what a part that starts at `ts` leaves, and its tree nests within
`n` levels. -/
def Recognised (x : Lexicon) (p : Part) (n : Nat) (ts : List Token) (s : List Lexeme) : Prop :=
  ∃ t us, s = plain us ∧ Derives x p ts t us ∧ t.nesting ≤ n

/-- The outcome of a rule, if it is a value, leaves unread lexemes with the property `Q`. -/
def Leaves {α : Type} (Q : List Lexeme → Prop) (r : Except Fault (α × List Lexeme)) : Prop :=
  Meets (fun r => Q r.2) (fun _ => True) r

theorem leaves_advance {ending : Ending} {rest : List Lexeme} :
    Meets (fun s => s = rest) (fun _ => True) (advance ending rest) :=
  meets_advance (fun _ => rfl) fun _ => trivial

theorem leaves_applied {site ahead : List Lexeme} {x : Except Mishap V} :
    Leaves (· = ahead) (applied site ahead x) := by
  cases x with
  | ok v => exact rfl
  | error m => trivial

section Recognise

variable {d : Domain V} {ending : Ending}

theorem link_leaves {rule : Rule V} {Q : List Lexeme → Prop} {op : Operation} {v : V}
    {site rest : List Lexeme} (hrule : Leaves Q (rule rest)) :
    Leaves Q (link d ending rule op v site rest) := by
  rw [link]
  apply leaves_advance.bind
  rintro s rfl
  apply hrule.bind
  rintro ⟨w, ahead⟩ hahead
  apply leaves_applied.mono
  rintro ⟨z, ahead'⟩ rfl
  exact hahead

/-- A chain over a rule that recognises what is linked recognises the chain. -/
theorem chain_recognises {p : Precedence} {n : Nat} {rule : Rule V}
    (hrule : ∀ ts, Leaves (Recognised d.lexicon p.linked n ts) (rule (plain ts))) :
    ∀ ts, Leaves (Recognised d.lexicon (.chain p) n ts)
      (chain d ending p.operator? rule (plain ts)) := by
  intro ts
  apply (hrule ts).bind
  rintro ⟨v, s⟩ ⟨left, us, hs, hleft, hn⟩
  -- every tail of the tree built so far completes a chain that starts at `ts`
  refine Meets.mono (chainFrom_meets
    (I := fun _ s => ∃ b us, s = plain us ∧ b.nesting ≤ n ∧
      ∀ t vs, Derives d.lexicon (.tail p b) us t vs → Derives d.lexicon (.chain p) ts t vs)
    ?_ s v s (Nat.le_refl _) ⟨left, us, hs, hn, fun t vs h => .chain hleft h⟩) ?_
  · rintro w l rest op ⟨b, us', hs', hb, htail⟩ hop
    obtain ⟨o, us'', rfl, rfl, rfl⟩ := plain_eq_cons hs'.symm
    apply (link_leaves (hrule us'')).mono
    rintro ⟨z, s''⟩ ⟨right, vs, rfl, hright, hrn⟩
    refine ⟨⟨.binary op o b right, vs, rfl, Tree.nesting_binary_le hop hb hrn, ?_⟩, ?_⟩
    · intro t vs' h
      exact htail t vs' (.tailStep hop hright h)
    · have hlen := hright.suffix.length_le
      simpa only [plain, List.length_map] using hlen
  · rintro ⟨w, s'⟩ ⟨⟨b, us', hs', hb, htail⟩, -⟩
    exact ⟨b, us', hs', htail b us' .tailEnd, hb⟩

/-- A sign is read where there is one. -/
theorem signAt_recognises (ts : List Token) :
    Meets (fun r => r = (false, plain ts) ∨
      ∃ m us, ts = m :: us ∧ m.kind = .minus ∧ r = (true, plain us)) (fun _ => True)
      (signAt ending (plain ts)) := by
  cases ts with
  | nil => exact Or.inl rfl
  | cons m us =>
      rw [plain_cons]
      by_cases hm : m.kind = .minus
      · simp only [signAt, if_pos hm]
        apply leaves_advance.map
        rintro s rfl
        exact Or.inr ⟨m, us, rfl, hm, rfl⟩
      · simp only [signAt, if_neg hm]
        exact Or.inl rfl

/-- An operand with its powers, wherever it starts. -/
theorem body_recognises {n : Nat} {operand : Rule V} {powers : V → Rule V}
    (hoperand : ∀ ts, Leaves (Recognised d.lexicon .operand n ts) (operand (plain ts)))
    (hpowers : ∀ v b ts, b.nesting ≤ n →
      Leaves (Recognised d.lexicon (.powers b) n ts) (powers v (plain ts)))
    (negated : Bool) (us : List Token) {Q : List Lexeme → Prop}
    (hQ : ∀ b t vs ws, Derives d.lexicon .operand us b vs → Derives d.lexicon (.powers b) vs t ws →
      t.nesting ≤ n → Q (plain ws)) :
    Leaves Q (operand (plain us) >>= fun r => powers r.1 r.2 >>= fun r =>
      negatedIf d negated r.1 >>= fun v => pure (v, r.2)) := by
  apply (hoperand us).bind
  rintro ⟨v, s₁⟩ ⟨b, vs, rfl, hb, hbn⟩
  apply (hpowers v b vs hbn).bind
  rintro ⟨w, s₂⟩ ⟨t, ws, rfl, ht, htn⟩
  have hnegated : Meets (fun _ => True) (fun _ => True) (negatedIf d negated w) := by
    cases negatedIf d negated w <;> trivial
  apply hnegated.bind
  intro z _
  exact hQ b t vs ws hb ht htn

theorem factor_recognises {n : Nat} {operand : Rule V} {powers : V → Rule V}
    (hoperand : ∀ ts, Leaves (Recognised d.lexicon .operand n ts) (operand (plain ts)))
    (hpowers : ∀ v b ts, b.nesting ≤ n →
      Leaves (Recognised d.lexicon (.powers b) n ts) (powers v (plain ts))) :
    ∀ ts, Leaves (Recognised d.lexicon .factor n ts)
      (factor d ending operand powers (plain ts)) := by
  intro ts
  apply (signAt_recognises ts).bind
  rintro ⟨negated, s⟩ (h | ⟨m, us, rfl, hm, h⟩)
  · obtain ⟨rfl, rfl⟩ := Prod.mk.inj h
    exact body_recognises hoperand hpowers false ts fun b t vs ws hb ht htn =>
      ⟨t, ws, rfl, .positive hb ht, htn⟩
  · obtain ⟨rfl, rfl⟩ := Prod.mk.inj h
    exact body_recognises hoperand hpowers true us fun b t vs ws hb ht htn =>
      ⟨.negative t, ws, rfl, .negative hm hb ht, htn⟩

theorem expression_recognises {n : Nat} {operand : Rule V} {powers : V → Rule V}
    (hoperand : ∀ ts, Leaves (Recognised d.lexicon .operand n ts) (operand (plain ts)))
    (hpowers : ∀ v b ts, b.nesting ≤ n →
      Leaves (Recognised d.lexicon (.powers b) n ts) (powers v (plain ts))) :
    ∀ ts, Leaves (Recognised d.lexicon (.chain .sum) n ts)
      (expression d ending operand powers (plain ts)) := by
  rw [expression_eq, term_eq]
  exact chain_recognises (chain_recognises (factor_recognises hoperand hpowers))

/-- A group is recognised from behind its opening parenthesis. -/
def GroupRecognised (x : Lexicon) (n : Nat) (ts : List Token) (s : List Lexeme) : Prop :=
  ∃ t r us, s = plain us ∧ Derives x (.chain .sum) ts t (r :: us) ∧ r.kind = .rightParen ∧
    t.nesting + 1 ≤ n

theorem groupWith_recognises {n : Nat} {inner : Rule V}
    (hinner : ∀ ts, Leaves (Recognised d.lexicon (.chain .sum) n ts) (inner (plain ts))) :
    ∀ l ts, Leaves (GroupRecognised d.lexicon (n + 1) ts)
      (groupWith ending inner (plain (l :: ts))) := by
  intro l ts
  apply leaves_advance.bind
  rintro s rfl
  apply (hinner ts).bind
  rintro ⟨v, ahead⟩ ⟨t, us, hus, ht, hn⟩
  cases ahead with
  | nil => trivial
  | cons r ahead =>
      obtain ⟨r, us, rfl, rfl, rfl⟩ := plain_eq_cons hus.symm
      by_cases hr : r.kind = .rightParen
      · simp only [if_pos hr]
        apply leaves_advance.map
        rintro s rfl
        exact ⟨t, r, us, rfl, ht, hr, Nat.succ_le_succ hn⟩
      · simp only [if_neg hr]
        trivial

theorem constantAt_recognises {n : Nat} {name : Token} {us : List Token}
    (hname : name.kind = .identifier) :
    Leaves (Recognised d.lexicon .operand n (name :: us))
      (constantAt d (plain (name :: us)) (plain us) name.text) := by
  rw [constantAt]
  cases hc : d.constant? name.text with
  | none =>
      dsimp only
      split <;> trivial
  | some v =>
      have hconstant : d.lexicon.isConstant name.text := by simp [hc]
      exact ⟨.constant name, us, rfl, .constant hname hconstant, Nat.zero_le n⟩

theorem callAt_recognises {n : Nat} {group : Rule V} {name : Token} {us : List Token}
    (hgroup : ∀ l ts, Leaves (GroupRecognised d.lexicon n ts) (group (plain (l :: ts))))
    (hname : name.kind = .identifier) (hopen : opensGroup (plain us) = true) :
    Leaves (Recognised d.lexicon .operand n (name :: us))
      (callAt d group (plain (name :: us)) (plain us) name.text) := by
  rw [callAt]
  cases hf : d.function? name.text with
  | none =>
      dsimp only
      split <;> trivial
  | some f =>
      have hfunction : d.lexicon.isFunction name.text := by simp [hf]
      cases us with
      | nil => cases hopen
      | cons l us =>
          have hl : l.kind = .leftParen := by simpa [opensGroup] using hopen
          apply (hgroup l us).bind
          rintro ⟨v, s⟩ ⟨t, r, vs, rfl, ht, hr, hn⟩
          apply leaves_applied.mono
          rintro ⟨w, s'⟩ rfl
          exact ⟨.call name t, vs, rfl, .call hname hfunction hl ht hr, hn⟩

theorem operandWith_recognises {n : Nat} {group : Rule V}
    (hgroup : ∀ l ts, Leaves (GroupRecognised d.lexicon n ts) (group (plain (l :: ts)))) :
    ∀ ts, Leaves (Recognised d.lexicon .operand n ts) (operandWith d ending group (plain ts)) := by
  intro ts
  cases ts with
  | nil => trivial
  | cons l us =>
      rw [plain_cons]
      by_cases hother : l.kind ≠ .leftParen ∧ l.kind ≠ .identifier ∧ l.kind ≠ .number
      · rw [operandWith_other d ending hother]
        trivial
      · cases hl : l.kind with
        | leftParen =>
            rw [operandWith_leftParen d ending hl]
            apply (hgroup l us).mono
            rintro ⟨v, s⟩ ⟨t, r, vs, hs, ht, hr, hn⟩
            exact ⟨.group t, vs, hs, .group hl ht hr, hn⟩
        | identifier =>
            rw [operandWith_identifier d ending hl]
            apply leaves_advance.bind
            rintro s rfl
            cases hopen : opensGroup (plain us) with
            | false => exact constantAt_recognises hl
            | true => exact callAt_recognises hgroup hl hopen
        | number =>
            rw [operandWith_number d ending hl]
            cases d.literal l.text with
            | error cause => trivial
            | ok v =>
                apply leaves_advance.map
                rintro s rfl
                exact ⟨.number l, us, rfl, .number hl, Nat.zero_le n⟩
        | plus | minus | multiply | divide | power | rightParen | endOfInput | endOfLine =>
            simp [hl] at hother

theorem powersWith_recognises {n : Nat} {power : V → Rule V}
    (hpower : ∀ v b o ts, b.nesting ≤ n → o.kind = .power →
      Leaves (Recognised d.lexicon (.powers b) n (o :: ts)) (power v (plain (o :: ts)))) :
    ∀ v b ts, b.nesting ≤ n →
      Leaves (Recognised d.lexicon (.powers b) n ts) (powersWith power v (plain ts)) := by
  intro v b ts hb
  cases ts with
  | nil => exact ⟨b, [], rfl, .powersEnd, hb⟩
  | cons o us =>
      rw [plain_cons]
      by_cases ho : o.kind = .power
      · simp only [powersWith, if_pos ho]
        exact hpower v b o us hb ho
      · simp only [powersWith, if_neg ho]
        exact ⟨b, o :: us, rfl, .powersEnd, hb⟩

/-- **What the rules accept is in the grammar**: an operand, or powers of any base, nested within
the levels left. -/
theorem operand_powers_recognise (d : Domain V) (ending : Ending) :
    ∀ n : Nat,
      (∀ ts, Leaves (Recognised d.lexicon .operand n ts) (operand d ending n (plain ts))) ∧
      (∀ v b ts, b.nesting ≤ n →
        Leaves (Recognised d.lexicon (.powers b) n ts) (powers d ending n v (plain ts))) := by
  intro n
  rw [operand_eq, powers_eq]
  induction n with
  | zero =>
      constructor
      · exact operandWith_recognises fun l ts => trivial
      · exact powersWith_recognises fun v b o ts hb ho => trivial
  | succ n ih =>
      rw [← operand_eq, ← powers_eq] at ih
      obtain ⟨hoperand, hpowers⟩ := ih
      constructor
      · exact operandWith_recognises
          (groupWith_recognises (expression_recognises hoperand hpowers))
      · apply powersWith_recognises
        intro v b o us hb ho
        rw [plain_cons, powerRule, powerWith_eq_link]
        apply (link_leaves (factor_recognises hoperand hpowers us)).mono
        rintro ⟨w, s⟩ ⟨e, vs, hs, he, hn⟩
        -- the exponent is read with one level less, which its power takes
        have hnest : (Tree.binary .power o b e).nesting ≤ n + 1 :=
          Nat.max_le.2 ⟨hb, Nat.succ_le_succ hn⟩
        exact ⟨.binary .power o b e, vs, hs, .power ho he, hnest⟩

/-- Lexemes that have a value are a whole expression that nests within the limit. -/
theorem evaluateLexemes_recognises {d : Domain V} {ending : Ending} {limit : Nat}
    {ts : List Token} {v : V} (h : evaluateLexemes d ending limit (plain ts) = .ok v) :
    ∃ t, Derives d.lexicon (.chain .sum) ts t [] ∧ t.nesting ≤ limit := by
  obtain ⟨hoperand, hpowers⟩ := operand_powers_recognise d ending limit
  have hmeets : Meets (fun _ => ∃ t, Derives d.lexicon (.chain .sum) ts t [] ∧ t.nesting ≤ limit)
      (fun _ => True) (evaluateLexemes d ending limit (plain ts)) := by
    apply leaves_advance.bind
    rintro s rfl
    apply (expression_recognises hoperand hpowers ts).bind
    rintro ⟨w, s⟩ ⟨t, us, rfl, ht, hn⟩
    cases us with
    | nil => exact ⟨t, ht, hn⟩
    | cons l us => trivial
  rw [h] at hmeets
  exact hmeets

end Recognise

end Calculator
