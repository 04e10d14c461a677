import Calculator.Expression.Rules

/-!
# Derivations

The grammar of expressions, independent of how expressions are evaluated. With tokens in place of
characters it reads

    sum     := product (('+' | '-') product)*
    product := factor (('*' | '/') factor)*
    factor  := ['-'] operand ('^' factor)?
    operand := '(' sum ')' | constant | function '(' sum ')' | number

`Derives x p ts t us` says that the tokens from the front of `ts` down to `us` form a part `p` of
an expression with the syntax tree `t`, where `x` tells which names are constants and which are
functions. A repeated part is derived operator by operator from the tree of what stands before it,
so that sums and products associate to the left; the exponent of a power is a factor, so that
powers associate to the right and a minus negates the whole chain of powers behind it.

The grammar is unambiguous (`Derives.unique`): tokens have at most one tree for each part that
ends before a token that cannot go on with it.
-/

set_option autoImplicit false

namespace Calculator

/-! ## Syntax trees -/

/-- Syntax trees. The names, literals and operators in them are tokens. -/
inductive Tree where
  | number (literal : Token)
  | constant (name : Token)
  | group (inner : Tree)
  | call (name : Token) (argument : Tree)
  | negative (body : Tree)
  | binary (op : Operation) (operator : Token) (left right : Tree)
deriving DecidableEq, Repr

/-- The levels of nesting that a tree takes: one for each group or call around a token, and one
for each link of a chain of powers before it. -/
def Tree.nesting : Tree → Nat
  | number _ | constant _ => 0
  | group inner => inner.nesting + 1
  | call _ argument => argument.nesting + 1
  | negative body => body.nesting
  | binary .power _ base exponent => max base.nesting (exponent.nesting + 1)
  | binary _ _ left right => max left.nesting right.nesting

/-! ## The grammar -/

/-- Which names are constants and which are functions. A name can be both. -/
structure Lexicon where
  isConstant : String → Bool
  isFunction : String → Bool

/-- The names that a domain defines. -/
def Domain.lexicon {V : Type} (d : Domain V) : Lexicon :=
  ⟨fun name => (d.constant? name).isSome, fun name => (d.function? name).isSome⟩

@[simp] theorem Domain.isConstant_lexicon {V : Type} (d : Domain V) (name : String) :
    d.lexicon.isConstant name = (d.constant? name).isSome := rfl

@[simp] theorem Domain.isFunction_lexicon {V : Type} (d : Domain V) (name : String) :
    d.lexicon.isFunction name = (d.function? name).isSome := rfl

/-- The precedences of the operators that associate to the left. -/
inductive Precedence where
  | sum
  | product
deriving DecidableEq

/-- The operators of a precedence. -/
def Precedence.operator? : Precedence → TokenKind → Option Operation
  | sum, .plus => some .add
  | sum, .minus => some .subtract
  | product, .multiply => some .multiply
  | product, .divide => some .divide
  | _, _ => none

/-- The rules read the operators of sums as the grammar has them. -/
theorem Precedence.operator?_sum : sum.operator? = additive? := by
  funext kind
  cases kind <;> rfl

/-- The rules read the operators of products as the grammar has them. -/
theorem Precedence.operator?_product : product.operator? = multiplicative? := by
  funext kind
  cases kind <;> rfl

/-- The parts of expressions. A tail is what follows in a chain of operators after the tree
`left`; powers are what follows after the tree `base`. -/
inductive Part where
  | chain (p : Precedence)
  | tail (p : Precedence) (left : Tree)
  | factor
  | powers (base : Tree)
  | operand

/-- What stands between the operators of a precedence. -/
def Precedence.linked : Precedence → Part
  | sum => .chain .product
  | product => .factor

/-- The tokens from the front of the first list down to the second form a part of an expression
with the given tree. -/
inductive Derives (x : Lexicon) : Part → List Token → Tree → List Token → Prop where
  | chain {p ts left us t vs} : Derives x p.linked ts left us → Derives x (.tail p left) us t vs →
      Derives x (.chain p) ts t vs
  | tailEnd {p left ts} : Derives x (.tail p left) ts left ts
  | tailStep {p left o op ts right us t vs} : p.operator? o.kind = some op →
      Derives x p.linked ts right us → Derives x (.tail p (.binary op o left right)) us t vs →
      Derives x (.tail p left) (o :: ts) t vs
  | positive {ts base us t vs} : Derives x .operand ts base us →
      Derives x (.powers base) us t vs → Derives x .factor ts t vs
  | negative {m ts base us t vs} : m.kind = .minus → Derives x .operand ts base us →
      Derives x (.powers base) us t vs → Derives x .factor (m :: ts) (.negative t) vs
  | powersEnd {base ts} : Derives x (.powers base) ts base ts
  | power {base o ts exponent us} : o.kind = .power → Derives x .factor ts exponent us →
      Derives x (.powers base) (o :: ts) (.binary .power o base exponent) us
  | number {l ts} : l.kind = .number → Derives x .operand (l :: ts) (.number l) ts
  | constant {name ts} : name.kind = .identifier → x.isConstant name.text →
      Derives x .operand (name :: ts) (.constant name) ts
  | group {l ts t r us} : l.kind = .leftParen → Derives x (.chain .sum) ts t (r :: us) →
      r.kind = .rightParen → Derives x .operand (l :: ts) (.group t) us
  | call {name l ts t r us} : name.kind = .identifier → x.isFunction name.text →
      l.kind = .leftParen → Derives x (.chain .sum) ts t (r :: us) → r.kind = .rightParen →
      Derives x .operand (name :: l :: ts) (.call name t) us

/-- The tokens are a whole expression. -/
def Complete (x : Lexicon) (ts : List Token) : Prop := ∃ t, Derives x (.chain .sum) ts t []

/-- An operand is a sum by itself. -/
theorem Derives.sum_of_operand {x : Lexicon} {ts us : List Token} {t : Tree}
    (h : Derives x .operand ts t us) : Derives x (.chain .sum) ts t us :=
  .chain (.chain (.positive h .powersEnd) .tailEnd) .tailEnd

/-! ## Where a part ends -/

/-- The kinds of tokens that can go on with a factor. A parenthesis behind a name makes it the
name of a function. -/
def extendsFactor (kind : TokenKind) : Bool := kind = .leftParen || kind = .power

/-- The kinds of tokens that can go on with a chain of operators. -/
def Precedence.extends : Precedence → TokenKind → Bool
  | product, kind => extendsFactor kind || (product.operator? kind).isSome
  | sum, kind =>
    (extendsFactor kind || (product.operator? kind).isSome) || (sum.operator? kind).isSome

/-- The kinds of tokens that can go on with a part. -/
def Part.extends : Part → TokenKind → Bool
  | operand, kind => kind = .leftParen
  | factor, kind | powers _, kind => extendsFactor kind
  | chain p, kind | tail p _, kind => p.extends kind

/-- The next token, if there is one, cannot go on with the part. -/
def Stops (p : Part) (ts : List Token) : Prop := ∀ t ∈ ts.head?, p.extends t.kind = false

theorem stops_nil (p : Part) : Stops p [] := by
  intro t ht
  simp at ht

theorem stops_cons_iff {p : Part} {t : Token} {ts : List Token} :
    Stops p (t :: ts) ↔ p.extends t.kind = false := by
  simp [Stops]

theorem Stops.linked {p : Precedence} {ts : List Token} (h : Stops (.chain p) ts) :
    Stops p.linked ts := by
  intro t ht
  have hstop := h t ht
  cases p with
  | sum => exact (Bool.or_eq_false_iff.1 hstop).1
  | product => exact (Bool.or_eq_false_iff.1 hstop).1

theorem Stops.operand {ts : List Token} (h : Stops .factor ts) : Stops .operand ts := by
  intro t ht
  exact (Bool.or_eq_false_iff.1 (h t ht)).1

/-- A closing parenthesis ends every part. -/
theorem stops_rightParen {p : Part} {r : Token} {ts : List Token} (hr : r.kind = .rightParen) :
    Stops p (r :: ts) := by
  rw [stops_cons_iff, hr]
  cases p with
  | chain p => cases p <;> rfl
  | tail p left => cases p <;> rfl
  | factor => rfl
  | powers base => rfl
  | operand => rfl

theorem extends_tail_of_operator {p : Precedence} {left : Tree} {kind : TokenKind}
    {op : Operation} (h : p.operator? kind = some op) : (Part.tail p left).extends kind = true := by
  cases p with
  | sum => simp [Part.extends, Precedence.extends, h]
  | product => simp [Part.extends, Precedence.extends, h]

/-- An operator ends what stands between the operators of its precedence. -/
theorem stops_linked_operator {p : Precedence} {o : Token} {op : Operation} {ts : List Token}
    (h : p.operator? o.kind = some op) : Stops p.linked (o :: ts) := by
  rw [stops_cons_iff]
  cases p with
  | sum => cases hk : o.kind <;> simp [hk, Precedence.operator?] at h <;> rfl
  | product => cases hk : o.kind <;> simp [hk, Precedence.operator?] at h <;> rfl

namespace Derives

variable {x : Lexicon}

/-- What stands before a tail ends there. -/
theorem stops_before_tail {p : Precedence} {left t : Tree} {us vs : List Token}
    (h : Derives x (.tail p left) us t vs) (hs : Stops (.chain p) vs) : Stops p.linked us := by
  cases h with
  | tailEnd => exact hs.linked
  | tailStep hop _ _ => exact stops_linked_operator hop

/-- What stands before powers ends there. -/
theorem stops_before_powers {base t : Tree} {us vs : List Token}
    (h : Derives x (.powers base) us t vs) (hs : Stops .factor vs) : Stops .operand us := by
  cases h with
  | powersEnd => exact hs.operand
  | power ho _ =>
      rw [stops_cons_iff, ho]
      rfl

theorem operand_ne_minus {m : Token} {ts us : List Token} {t : Tree}
    (h : Derives x .operand (m :: ts) t us) : m.kind ≠ .minus := by
  cases h with
  | number hk => rw [hk]; decide
  | constant hk _ => rw [hk]; decide
  | group hk _ _ => rw [hk]; decide
  | call hk _ _ _ _ => rw [hk]; decide

/-! ## Unambiguity -/

/-- **The grammar is unambiguous.** Two derivations of one part from the same tokens agree on the
tree and on where the part ends, if neither ends before a token that could go on with it. -/
theorem unique {p : Part} {ts us : List Token} {t : Tree} (h : Derives x p ts t us) :
    ∀ {t' : Tree} {us' : List Token}, Derives x p ts t' us' → Stops p us → Stops p us' →
      t = t' ∧ us = us' := by
  -- the kind of the next token decides which rule both derivations take
  induction h with
  | chain h₁ h₂ ih₁ ih₂ =>
      intro t' us' h' hs hs'
      cases h' with
      | chain h₁' h₂' =>
          obtain ⟨rfl, rfl⟩ := ih₁ h₁' (h₂.stops_before_tail hs) (h₂'.stops_before_tail hs')
          exact ih₂ h₂' hs hs'
  | tailEnd =>
      intro t' us' h' hs hs'
      cases h' with
      | tailEnd => exact ⟨rfl, rfl⟩
      | tailStep hop _ _ =>
          -- the first derivation ends before an operator that the second one takes
          rw [stops_cons_iff, extends_tail_of_operator hop] at hs
          cases hs
  | tailStep hop h₁ h₂ ih₁ ih₂ =>
      intro t' us' h' hs hs'
      cases h' with
      | tailEnd =>
          rw [stops_cons_iff, extends_tail_of_operator hop] at hs'
          cases hs'
      | tailStep hop' h₁' h₂' =>
          rw [hop] at hop'
          obtain rfl := Option.some.inj hop'
          obtain ⟨rfl, rfl⟩ := ih₁ h₁' (h₂.stops_before_tail hs) (h₂'.stops_before_tail hs')
          exact ih₂ h₂' hs hs'
  | positive h₁ h₂ ih₁ ih₂ =>
      intro t' us' h' hs hs'
      cases h' with
      | positive h₁' h₂' =>
          obtain ⟨rfl, rfl⟩ := ih₁ h₁' (h₂.stops_before_powers hs) (h₂'.stops_before_powers hs')
          exact ih₂ h₂' hs hs'
      | negative hm _ _ => exact absurd hm h₁.operand_ne_minus
  | negative hm h₁ h₂ ih₁ ih₂ =>
      intro t' us' h' hs hs'
      cases h' with
      | positive h₁' _ => exact absurd hm h₁'.operand_ne_minus
      | negative _ h₁' h₂' =>
          obtain ⟨rfl, rfl⟩ := ih₁ h₁' (h₂.stops_before_powers hs) (h₂'.stops_before_powers hs')
          obtain ⟨rfl, rfl⟩ := ih₂ h₂' hs hs'
          exact ⟨rfl, rfl⟩
  | powersEnd =>
      intro t' us' h' hs hs'
      cases h' with
      | powersEnd => exact ⟨rfl, rfl⟩
      | power ho _ =>
          rw [stops_cons_iff, ho] at hs
          cases hs
  | power ho h₁ ih₁ =>
      intro t' us' h' hs hs'
      cases h' with
      | powersEnd =>
          rw [stops_cons_iff, ho] at hs'
          cases hs'
      | power _ h₁' =>
          obtain ⟨rfl, rfl⟩ := ih₁ h₁' hs hs'
          exact ⟨rfl, rfl⟩
  | number hl =>
      intro t' us' h' hs hs'
      cases h' with
      | number _ => exact ⟨rfl, rfl⟩
      | constant hk _ => rw [hl] at hk; cases hk
      | group hk _ _ => rw [hl] at hk; cases hk
      | call hk _ _ _ _ => rw [hl] at hk; cases hk
  | constant hn hc =>
      intro t' us' h' hs hs'
      cases h' with
      | number hk => rw [hn] at hk; cases hk
      | constant _ _ => exact ⟨rfl, rfl⟩
      | group hk _ _ => rw [hn] at hk; cases hk
      | call _ _ hk _ _ =>
          rw [stops_cons_iff, hk] at hs
          cases hs
  | group hl h₁ hr ih₁ =>
      intro t' us' h' hs hs'
      cases h' with
      | number hk => rw [hl] at hk; cases hk
      | constant hk _ => rw [hl] at hk; cases hk
      | group _ h₁' hr' =>
          obtain ⟨rfl, heq⟩ := ih₁ h₁' (stops_rightParen hr) (stops_rightParen hr')
          exact ⟨rfl, (List.cons.inj heq).2⟩
      | call hk _ _ _ _ => rw [hl] at hk; cases hk
  | call hn hf hl h₁ hr ih₁ =>
      intro t' us' h' hs hs'
      cases h' with
      | number hk => rw [hn] at hk; cases hk
      | constant _ _ =>
          rw [stops_cons_iff, hl] at hs'
          cases hs'
      | group hk _ _ => rw [hn] at hk; cases hk
      | call _ _ _ h₁' hr' =>
          obtain ⟨rfl, heq⟩ := ih₁ h₁' (stops_rightParen hr) (stops_rightParen hr')
          exact ⟨rfl, (List.cons.inj heq).2⟩

end Derives

end Calculator
