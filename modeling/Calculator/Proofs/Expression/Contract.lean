import Calculator.Expression.Rules

/-!
# Contracts of the rules

A contract says what holds where a factor is due, where an operand is due, and where an
operand has ended, and what holds of values and of faults. It is kept (`Contract.Kept`) if every
single step of the rules keeps it: passing a sign, an operator or a parenthesis, resolving a name,
applying an operation. A contract that is kept holds of the rules for operands and powers at every
number of levels (`Contract.Kept.operand_powers_meets`), and so of whole expressions
(`Contract.Kept.expression_meets`).

Many contracts are about values alone and take any place among the lexemes. Then it is enough that
literals, constants and the steps keep them (`KeepsValues.evaluateLexemes_meets`).

The recursion of the rules is followed here once. The loop over operators of one precedence and
the rule for powers share one step, `link`: an operator with its right operand.
-/

set_option autoImplicit false

namespace Calculator

variable {V C α β : Type}

/-! ## Outcomes -/

/-- The outcome is a result that satisfies `Q`, or a fault that satisfies `Bad`. -/
def Meets (Q : α → Prop) (Bad : Fault → Prop) : Except Fault α → Prop
  | .ok a => Q a
  | .error f => Bad f

theorem Meets.bind {P : α → Prop} {Q : β → Prop} {Bad : Fault → Prop} {x : Except Fault α}
    {f : α → Except Fault β} (hx : Meets P Bad x) (hf : ∀ a, P a → Meets Q Bad (f a)) :
    Meets Q Bad (x >>= f) := by
  cases x with
  | error e => exact hx
  | ok a => exact hf a hx

theorem Meets.map {P : α → Prop} {Q : β → Prop} {Bad : Fault → Prop} {x : Except Fault α}
    {f : α → β} (hx : Meets P Bad x) (hf : ∀ a, P a → Q (f a)) : Meets Q Bad (f <$> x) := by
  cases x with
  | error e => exact hx
  | ok a => exact hf a hx

theorem Meets.mono {P Q : α → Prop} {Bad : Fault → Prop} {x : Except Fault α}
    (hx : Meets P Bad x) (hPQ : ∀ a, P a → Q a) : Meets Q Bad x := by
  cases x with
  | error e => exact hx
  | ok a => exact hPQ a hx

/-! ## Moving on -/

/-- The next lexeme, or the end of the input, has been scanned. -/
def Present (ending : Ending) (lexemes : List Lexeme) : Prop := ending = .broken → lexemes ≠ []

theorem advance_of_present {ending : Ending} {rest : List Lexeme} (h : Present ending rest) :
    advance ending rest = .ok rest := by
  cases rest with
  | cons l rest => rfl
  | nil =>
      cases ending with
      | complete => rfl
      | broken => exact absurd rfl (h rfl)

/-- A source that is scanned to its end can always be moved on in. -/
@[simp] theorem advance_complete (rest : List Lexeme) : advance .complete rest = .ok rest :=
  advance_of_present fun h => nomatch h

theorem advance_of_not_present {ending : Ending} {rest : List Lexeme}
    (h : ¬ Present ending rest) : advance ending rest = .error .lexical := by
  cases rest with
  | cons l rest => exact absurd (fun _ => List.cons_ne_nil l rest) h
  | nil =>
      cases ending with
      | complete => exact absurd (fun hc => nomatch hc) h
      | broken => rfl

theorem meets_advance {ending : Ending} {rest : List Lexeme} {Q : List Lexeme → Prop}
    {Bad : Fault → Prop} (hq : Present ending rest → Q rest)
    (hb : ¬ Present ending rest → Bad .lexical) : Meets Q Bad (advance ending rest) := by
  by_cases h : Present ending rest
  · rw [advance_of_present h]
    exact hq h
  · rw [advance_of_not_present h]
    exact hb h

/-- Moving on keeps the lexemes as they are. -/
theorem Meets.advance_suffix {ending : Ending} {rest : List Lexeme} {Q : List Lexeme → Prop}
    {Bad : Fault → Prop} (h : Meets Q Bad (advance ending rest)) :
    Meets (fun s => Q s ∧ s = rest) Bad (advance ending rest) := by
  by_cases hp : Present ending rest
  · rw [advance_of_present hp] at h ⊢
    exact ⟨h, rfl⟩
  · rw [advance_of_not_present hp] at h ⊢
    exact h

/-! ## Operators -/

/-- The operator of a power. -/
def power? (k : TokenKind) : Option Operation := if k = .power then some .power else none

/-- The first lexeme, if there is one, is none of the given operators. -/
def Clear (operator? : TokenKind → Option Operation) (lexemes : List Lexeme) : Prop :=
  ∀ l ∈ lexemes.head?, operator? l.kind = none

theorem clear_nil (operator? : TokenKind → Option Operation) : Clear operator? [] := by
  intro l hl
  simp at hl

theorem clear_cons_iff {operator? : TokenKind → Option Operation} {l : Lexeme}
    {rest : List Lexeme} : Clear operator? (l :: rest) ↔ operator? l.kind = none := by
  simp [Clear]

/-- A lexeme of this kind is the operator of the operation. -/
def Denotes (kind : TokenKind) (op : Operation) : Prop :=
  additive? kind = some op ∨ multiplicative? kind = some op ∨ power? kind = some op

/-- The first lexeme is no operator at all. -/
def NoOperator (lexemes : List Lexeme) : Prop :=
  (Clear power? lexemes ∧ Clear multiplicative? lexemes) ∧ Clear additive? lexemes

section Link

variable (d : Domain V) (ending : Ending)

/-- An operator with its right operand: the value `v` before the operator, the lexemes `site`
from the operator on, and the lexemes `rest` behind it. -/
def link (rule : Rule V) (op : Operation) (v : V) (site rest : List Lexeme) :
    Except Fault (V × List Lexeme) := do
  let rest ← advance ending rest
  let (w, ahead) ← rule rest
  applied site ahead (d.operate op v w)

theorem chainFrom_cons_of_some {operator? : TokenKind → Option Operation} {rule : Rule V}
    {b l : Lexeme} {bound rest : List Lexeme} {v : V} {op : Operation}
    (h : operator? l.kind = some op) :
    chainFrom d ending operator? rule (b :: bound) v (l :: rest) =
      link d ending rule op v (l :: rest) rest >>= fun r =>
        chainFrom d ending operator? rule bound r.1 r.2 := by
  simp only [chainFrom, h, link, bind_assoc]

theorem chainFrom_of_clear {operator? : TokenKind → Option Operation} {rule : Rule V}
    {bound lexemes : List Lexeme} {v : V} (h : Clear operator? lexemes) :
    chainFrom d ending operator? rule bound v lexemes = .ok (v, lexemes) := by
  cases bound with
  | nil => rfl
  | cons b bound =>
      cases lexemes with
      | nil => rfl
      | cons l rest => simp only [chainFrom, clear_cons_iff.1 h]

theorem powerWith_eq_link (operand : Rule V) (powers : V → Rule V) (base : V) (l : Lexeme)
    (rest : List Lexeme) :
    powerWith d ending operand powers base (l :: rest) =
      link d ending (factor d ending operand powers) .power base (l :: rest) rest := by
  simp only [powerWith, link, factor, List.drop_succ_cons, List.drop_zero, bind_assoc, pure_bind]

theorem operandWith_leftParen {group : Rule V} {l : Lexeme} {rest : List Lexeme}
    (hl : l.kind = .leftParen) : operandWith d ending group (l :: rest) = group (l :: rest) := by
  simp only [operandWith, hl]

theorem operandWith_identifier {group : Rule V} {l : Lexeme} {rest : List Lexeme}
    (hl : l.kind = .identifier) :
    operandWith d ending group (l :: rest) = advance ending rest >>= fun ahead =>
      if opensGroup ahead then callAt d group (l :: rest) ahead l.text
      else constantAt d (l :: rest) ahead l.text := by
  simp only [operandWith, hl]

theorem operandWith_number {group : Rule V} {l : Lexeme} {rest : List Lexeme}
    (hl : l.kind = .number) :
    operandWith d ending group (l :: rest) =
      (d.literal l.text).mapError .escaped >>= fun v => (v, ·) <$> advance ending rest := by
  simp only [operandWith, hl]
  cases d.literal l.text <;> rfl

theorem operandWith_other {group : Rule V} {l : Lexeme} {rest : List Lexeme}
    (h : l.kind ≠ .leftParen ∧ l.kind ≠ .identifier ∧ l.kind ≠ .number) :
    operandWith d ending group (l :: rest) =
      .error (.misplaced (l :: rest) (l :: rest) .operand) := by
  obtain ⟨h1, h2, h3⟩ := h
  unfold operandWith
  cases hl : l.kind with
  | leftParen => exact absurd hl h1
  | identifier => exact absurd hl h2
  | number => exact absurd hl h3
  | plus | minus | multiply | divide | power | rightParen | endOfInput | endOfLine =>
      simp only [hl]

variable {d ending}

/-- What a step of a chain keeps, the chain keeps, and it stops only before a lexeme that is none
of its operators. The bound on the number of operators does not cut it short. -/
theorem chainFrom_meets {operator? : TokenKind → Option Operation} {rule : Rule V}
    {I : V → List Lexeme → Prop} {Bad : Fault → Prop}
    (hlink : ∀ v l rest op, I v (l :: rest) → operator? l.kind = some op →
      Meets (fun r => I r.1 r.2 ∧ r.2.length ≤ rest.length) Bad
        (link d ending rule op v (l :: rest) rest)) :
    ∀ (bound : List Lexeme) (v : V) (lexemes : List Lexeme), lexemes.length ≤ bound.length →
      I v lexemes → Meets (fun r => I r.1 r.2 ∧ Clear operator? r.2) Bad
        (chainFrom d ending operator? rule bound v lexemes) := by
  intro bound
  -- each link passes its operator, so the bound outlasts the lexemes
  induction bound with
  | nil =>
      intro v lexemes hlen hi
      obtain rfl : lexemes = [] := List.length_eq_zero_iff.1 (Nat.le_zero.1 hlen)
      exact ⟨hi, clear_nil operator?⟩
  | cons b bound ih =>
      intro v lexemes hlen hi
      cases lexemes with
      | nil => exact ⟨hi, clear_nil operator?⟩
      | cons l rest =>
          cases hop : operator? l.kind with
          | none =>
              rw [chainFrom_of_clear d ending (clear_cons_iff.2 hop)]
              exact ⟨hi, clear_cons_iff.2 hop⟩
          | some op =>
              rw [chainFrom_cons_of_some d ending hop]
              apply (hlink v l rest op hi hop).bind
              rintro ⟨w, ahead⟩ ⟨hw, hahead⟩
              have hrest : rest.length ≤ bound.length := Nat.le_of_succ_le_succ hlen
              exact ih w ahead (Nat.le_trans hahead hrest) hw

end Link

/-! ## Contracts -/

/-- What is to hold at the places between the lexemes, of values, and of faults. The predicates on
places take the levels of nesting left, the context of the place, and the unread lexemes; `inside`
is the context inside a group. -/
structure Contract (V C : Type) where
  inside : C → C
  /-- A factor is due. -/
  Due : Nat → C → List Lexeme → Prop
  /-- An operand is due, its sign already passed. -/
  Owed : Nat → C → List Lexeme → Prop
  /-- An operand has ended. -/
  Done : Nat → C → List Lexeme → Prop
  Value : V → Prop
  Bad : Fault → Prop

namespace Contract

/-- A parenthesis that opens a group: it is the operand that is due, or stands behind a function
name that is. -/
def Opening (k : Contract V C) (d : Domain V) (n : Nat) (c : C) (l : Lexeme)
    (rest : List Lexeme) : Prop :=
  l.kind = .leftParen ∧
    (k.Owed n c (l :: rest) ∨
      ∃ name f, name.kind = .identifier ∧ d.function? name.text = some f ∧
        k.Owed n c (name :: l :: rest))

/-- Every single step of the rules keeps the contract. -/
structure Kept (k : Contract V C) (d : Domain V) (ending : Ending) : Prop where
  minus {n c l rest} : k.Due n c (l :: rest) → l.kind = .minus →
    Meets (k.Owed n c) k.Bad (advance ending rest)
  unsigned {n c s} : k.Due n c s → (∀ l ∈ s.head?, l.kind ≠ .minus) → k.Owed n c s
  number {n c l rest v} : k.Owed n c (l :: rest) → l.kind = .number →
    d.literal l.text = .ok v → k.Value v ∧ Meets (k.Done n c) k.Bad (advance ending rest)
  literal {n c l rest cause} : k.Owed n c (l :: rest) → l.kind = .number →
    d.literal l.text = .error cause → k.Bad (.escaped cause)
  name {n c l rest} : k.Owed n c (l :: rest) → l.kind = .identifier → ¬ Present ending rest →
    k.Bad .lexical
  constant {n c l rest v} : k.Owed n c (l :: rest) → l.kind = .identifier →
    Present ending rest → opensGroup rest = false → d.constant? l.text = some v →
    k.Value v ∧ k.Done n c rest
  noConstant {n c l rest} : k.Owed n c (l :: rest) → l.kind = .identifier →
    Present ending rest → opensGroup rest = false → d.constant? l.text = none →
    k.Bad (if (d.function? l.text).isSome then .misplaced rest rest (.argument l.text)
      else .misplaced (l :: rest) rest (.constant l.text))
  noFunction {n c l rest} : k.Owed n c (l :: rest) → l.kind = .identifier →
    opensGroup rest = true → d.function? l.text = none →
    k.Bad (if (d.constant? l.text).isSome then .misplaced rest rest (.operatorAfter l.text)
      else .misplaced (l :: rest) rest (.function l.text))
  noOperand {n c s} : k.Owed n c s →
    (∀ l ∈ s.head?, l.kind ≠ .leftParen ∧ l.kind ≠ .identifier ∧ l.kind ≠ .number) →
    k.Bad (.misplaced s s .operand)
  opened {n c l rest} : k.Opening d (n + 1) c l rest →
    Meets (k.Due n (k.inside c)) k.Bad (advance ending rest)
  groupTooDeep {c l rest} : k.Opening d 0 c l rest →
    k.Bad (.misplaced (l :: rest) (l :: rest) .depth)
  closed {n c l rest} : k.Done n (k.inside c) (l :: rest) → l.kind = .rightParen →
    Meets (k.Done (n + 1) c) k.Bad (advance ending rest)
  unclosed {n c s} : k.Done n (k.inside c) s → NoOperator s →
    (∀ l ∈ s.head?, l.kind ≠ .rightParen) → k.Bad (.misplaced s s .closing)
  operator {n c l rest} : k.Done n c (l :: rest) →
    ((additive? l.kind).isSome ∨ (multiplicative? l.kind).isSome) →
    Meets (k.Due n c) k.Bad (advance ending rest)
  power {n c l rest} : k.Done (n + 1) c (l :: rest) → l.kind = .power →
    Meets (k.Due n c) k.Bad (advance ending rest)
  powerTooDeep {c l rest} : k.Done 0 c (l :: rest) → l.kind = .power →
    k.Bad (.misplaced (l :: rest) (l :: rest) .depth)
  powerEnd {n c s} : k.Done n c s → k.Done (n + 1) c s
  negate {v} : k.Value v →
    Meets k.Value k.Bad ((d.negate v).mapError .escaped)
  operate {m n c l rest ahead v w} : k.Done n c (l :: rest) → k.Done m c ahead →
    ahead <:+ rest → k.Value v → k.Value w → ∀ op, Denotes l.kind op →
    Meets (fun r => k.Value r.1) k.Bad (applied (l :: rest) ahead (d.operate op v w))
  apply {n c l rest ahead v f} : k.Owed n c (l :: rest) → l.kind = .identifier →
    d.function? l.text = some f → k.Done n c ahead → ahead <:+ rest → k.Value v →
    Meets (fun r => k.Value r.1) k.Bad (applied (l :: rest) ahead (f v))

/-- A value and the place behind an operand that started at `s`. -/
def After (k : Contract V C) (n : Nat) (c : C) (s : List Lexeme) (r : V × List Lexeme) : Prop :=
  k.Value r.1 ∧ k.Done n c r.2 ∧ r.2 <:+ s

theorem After.of_suffix {k : Contract V C} {n : Nat} {c : C} {s s' : List Lexeme}
    {r : V × List Lexeme} (h : k.After n c s r) (hs : s <:+ s') : k.After n c s' r :=
  ⟨h.1, h.2.1, h.2.2.trans hs⟩

namespace Kept

variable {k : Contract V C} {d : Domain V} {ending : Ending}

/-- An applied operation has a value that the contract allows, and stays where it was. -/
theorem applied_meets {site ahead : List Lexeme} {x : Except Mishap V} {P : List Lexeme → Prop}
    (h : Meets (fun r => k.Value r.1) k.Bad (applied site ahead x)) (hp : P ahead) :
    Meets (fun r => k.Value r.1 ∧ P r.2) k.Bad (applied site ahead x) := by
  cases x with
  | error m => exact h
  | ok v => exact ⟨h, hp⟩

theorem negatedIf_meets (hk : k.Kept d ending) (negated : Bool) {v : V} (hv : k.Value v) :
    Meets k.Value k.Bad (negatedIf d negated v) := by
  cases negated with
  | false => exact hv
  | true => exact hk.negate hv

theorem signAt_meets (hk : k.Kept d ending) {n : Nat} {c : C} {s : List Lexeme}
    (h : k.Due n c s) :
    Meets (fun r => k.Owed n c r.2 ∧ r.2 <:+ s) k.Bad (signAt ending s) := by
  cases s with
  | nil => exact ⟨hk.unsigned h (by simp), List.suffix_refl _⟩
  | cons l rest =>
      by_cases hl : l.kind = .minus
      · simp only [signAt, if_pos hl]
        refine (hk.minus h hl).advance_suffix.map ?_
        rintro s ⟨hs, rfl⟩
        exact ⟨hs, List.suffix_cons _ _⟩
      · simp only [signAt, if_neg hl]
        exact ⟨hk.unsigned h (by simpa using hl), List.suffix_refl _⟩

/-- A right operand that starts where a factor is due links up with the value before its
operator. -/
theorem link_meets (hk : k.Kept d ending) {m n : Nat} {c : C} {rule : Rule V}
    {P : List Lexeme → Prop} {l : Lexeme} {rest : List Lexeme} {v : V}
    (hrule : ∀ s, k.Due m c s → Meets (fun r => k.After m c s r ∧ P r.2) k.Bad (rule s))
    (hadvance : Meets (k.Due m c) k.Bad (advance ending rest))
    (hdone : k.Done n c (l :: rest)) (hv : k.Value v) {op : Operation}
    (hop : Denotes l.kind op) :
    Meets (fun r => k.After m c rest r ∧ P r.2) k.Bad
      (link d ending rule op v (l :: rest) rest) := by
  rw [link]
  apply hadvance.advance_suffix.bind
  rintro s ⟨hs, rfl⟩
  apply (hrule s hs).bind
  rintro ⟨w, ahead⟩ ⟨⟨hw, hahead, hsuffix⟩, hp⟩
  -- both operands have values, and the place is that behind the right one
  have happlied := hk.operate hdone hahead hsuffix hv hw op hop
  exact (applied_meets (P := fun a => k.Done m c a ∧ a <:+ s ∧ P a) happlied
    ⟨hahead, hsuffix, hp⟩).mono fun r ⟨hr, h1, h2, h3⟩ => ⟨⟨hr, h1, h2⟩, h3⟩

/-- A chain whose links start where a factor is due ends before a lexeme that is none of its
operators, and keeps what its links have said of the place. -/
theorem chain_meets (hk : k.Kept d ending) (operator? : TokenKind → Option Operation) {n : Nat}
    {c : C} {rule : Rule V} {P : List Lexeme → Prop}
    (hop : ∀ kind op, operator? kind = some op →
      additive? kind = some op ∨ multiplicative? kind = some op)
    (hrule : ∀ s, k.Due n c s → Meets (fun r => k.After n c s r ∧ P r.2) k.Bad (rule s)) :
    ∀ s, k.Due n c s → Meets (fun r => k.After n c s r ∧ P r.2 ∧ Clear operator? r.2) k.Bad
      (chain d ending operator? rule s) := by
  intro s hs
  apply (hrule s hs).bind
  rintro ⟨v, ahead⟩ ⟨hv, hp⟩
  -- what a link keeps: a value, and a place behind the start with the property `P`
  refine Meets.mono (chainFrom_meets (I := fun v s' => k.After n c s (v, s') ∧ P s') ?_
    ahead v ahead (Nat.le_refl _) ⟨hv, hp⟩) ?_
  · rintro v l rest op ⟨⟨hv, hdone, hsuffix⟩, -⟩ hl
    have hkind := hop l.kind op hl
    have hdue := hk.operator hdone (hkind.imp Option.isSome_of_eq_some Option.isSome_of_eq_some)
    apply (hk.link_meets hrule hdue hdone hv (hkind.imp_right .inl)).mono
    rintro r ⟨hr, hp⟩
    exact ⟨⟨hr.of_suffix ((List.suffix_cons l rest).trans hsuffix), hp⟩, hr.2.2.length_le⟩
  · rintro r ⟨⟨h1, h2⟩, h3⟩
    exact ⟨h1, h2, h3⟩

/-! ### Rules over given rules for operands and powers -/

section Levels

variable {n : Nat} {operand : Rule V} {powers : V → Rule V}

theorem factor_meets (hk : k.Kept d ending) {c : C}
    (hoperand : ∀ s, k.Owed n c s → Meets (k.After n c s) k.Bad (operand s))
    (hpowers : ∀ v s, k.Value v → k.Done n c s →
      Meets (fun r => k.After n c s r ∧ Clear power? r.2) k.Bad (powers v s)) :
    ∀ s, k.Due n c s → Meets (fun r => k.After n c s r ∧ Clear power? r.2) k.Bad
      (factor d ending operand powers s) := by
  intro s hs
  apply (hk.signAt_meets hs).bind
  rintro ⟨negated, s₁⟩ ⟨hs₁, hsuffix₁⟩
  apply (hoperand s₁ hs₁).bind
  rintro ⟨v, s₂⟩ ⟨hv, hs₂, hsuffix₂⟩
  apply (hpowers v s₂ hv hs₂).bind
  rintro ⟨w, s₃⟩ ⟨⟨hw, hs₃, hsuffix₃⟩, hclear⟩
  apply (hk.negatedIf_meets negated hw).bind
  intro z hz
  exact ⟨⟨hz, hs₃, hsuffix₃.trans (hsuffix₂.trans hsuffix₁)⟩, hclear⟩

/-- A whole expression over rules that keep the contract ends before a lexeme that is no
operator. -/
theorem expressionWith_meets (hk : k.Kept d ending) {c : C}
    (hoperand : ∀ s, k.Owed n c s → Meets (k.After n c s) k.Bad (operand s))
    (hpowers : ∀ v s, k.Value v → k.Done n c s →
      Meets (fun r => k.After n c s r ∧ Clear power? r.2) k.Bad (powers v s)) :
    ∀ s, k.Due n c s → Meets (fun r => k.After n c s r ∧ NoOperator r.2) k.Bad
      (expression d ending operand powers s) := by
  have hfactor := hk.factor_meets hoperand hpowers
  have hterm := hk.chain_meets multiplicative? (fun _ _ h => Or.inr h) hfactor
  exact hk.chain_meets additive? (P := fun s => Clear power? s ∧ Clear multiplicative? s)
    (fun _ _ h => Or.inl h) hterm

theorem groupWith_meets (hk : k.Kept d ending) {c : C} {inner : Rule V}
    (hinner : ∀ s, k.Due n (k.inside c) s →
      Meets (fun r => k.After n (k.inside c) s r ∧ NoOperator r.2) k.Bad (inner s)) :
    ∀ l rest, k.Opening d (n + 1) c l rest →
      Meets (k.After (n + 1) c rest) k.Bad (groupWith ending inner (l :: rest)) := by
  intro l rest hopen
  simp only [groupWith, List.drop_succ_cons, List.drop_zero]
  -- the context changes behind the opening parenthesis and changes back at the closing one
  refine (hk.opened hopen).advance_suffix.bind ?_
  rintro s ⟨hs, rfl⟩
  apply (hinner s hs).bind
  rintro ⟨v, ahead⟩ ⟨⟨hv, hdone, hsuffix⟩, hclear⟩
  cases ahead with
  | nil => exact hk.unclosed hdone hclear (by simp)
  | cons p ahead =>
      by_cases hp : p.kind = .rightParen
      · simp only [if_pos hp]
        refine (hk.closed hdone hp).advance_suffix.map ?_
        rintro s' ⟨hs', rfl⟩
        exact ⟨hv, hs', (List.suffix_cons _ _).trans hsuffix⟩
      · simp only [if_neg hp]
        exact hk.unclosed hdone hclear (by simpa using hp)

theorem constantAt_meets (hk : k.Kept d ending) {c : C} {l : Lexeme} {rest : List Lexeme}
    (hs : k.Owed n c (l :: rest)) (hl : l.kind = .identifier) (hp : Present ending rest)
    (hopen : opensGroup rest = false) :
    Meets (k.After n c (l :: rest)) k.Bad (constantAt d (l :: rest) rest l.text) := by
  rw [constantAt]
  cases hc : d.constant? l.text with
  | some v =>
      obtain ⟨hv, hdone⟩ := hk.constant hs hl hp hopen hc
      exact ⟨hv, hdone, List.suffix_cons _ _⟩
  | none =>
      have hbad := hk.noConstant hs hl hp hopen hc
      dsimp only
      cases hf : (d.function? l.text).isSome with
      | true =>
          rw [hf] at hbad
          exact hbad
      | false =>
          rw [hf] at hbad
          exact hbad

theorem callAt_meets (hk : k.Kept d ending) {c : C} {group : Rule V} {l : Lexeme}
    {rest : List Lexeme}
    (hgroup : ∀ p rest, k.Opening d n c p rest →
      Meets (k.After n c rest) k.Bad (group (p :: rest)))
    (hs : k.Owed n c (l :: rest)) (hl : l.kind = .identifier) (hopen : opensGroup rest = true) :
    Meets (k.After n c (l :: rest)) k.Bad (callAt d group (l :: rest) rest l.text) := by
  rw [callAt]
  cases hf : d.function? l.text with
  | none =>
      have hbad := hk.noFunction hs hl hopen hf
      dsimp only
      cases hc : (d.constant? l.text).isSome with
      | true =>
          rw [hc] at hbad
          exact hbad
      | false =>
          rw [hc] at hbad
          exact hbad
  | some f =>
      cases rest with
      | nil => simp [opensGroup] at hopen
      | cons p rest =>
          have hp : p.kind = .leftParen := by simpa [opensGroup] using hopen
          apply (hgroup p rest ⟨hp, Or.inr ⟨l, f, hl, hf, hs⟩⟩).bind
          rintro ⟨v, ahead⟩ ⟨hv, hdone, hsuffix⟩
          have hsuffix' := hsuffix.trans (List.suffix_cons p rest)
          exact applied_meets (P := fun s => k.Done n c s ∧ s <:+ l :: p :: rest)
            (hk.apply hs hl hf hdone hsuffix' hv)
            ⟨hdone, hsuffix'.trans (List.suffix_cons _ _)⟩

/-- An operand keeps the contract if groups do. -/
theorem operandWith_meets (hk : k.Kept d ending) {c : C} {group : Rule V}
    (hgroup : ∀ p rest, k.Opening d n c p rest →
      Meets (k.After n c rest) k.Bad (group (p :: rest))) :
    ∀ s, k.Owed n c s → Meets (k.After n c s) k.Bad (operandWith d ending group s) := by
  intro s hs
  cases s with
  | nil => exact hk.noOperand hs (by simp)
  | cons l rest =>
      by_cases hother : l.kind ≠ .leftParen ∧ l.kind ≠ .identifier ∧ l.kind ≠ .number
      · rw [operandWith_other d ending hother]
        exact hk.noOperand hs (by simpa using hother)
      · cases hl : l.kind with
        | leftParen =>
            rw [operandWith_leftParen d ending hl]
            apply (hgroup l rest ⟨hl, Or.inl hs⟩).mono
            exact fun r hr => hr.of_suffix (List.suffix_cons l rest)
        | identifier =>
            rw [operandWith_identifier d ending hl]
            by_cases hp : Present ending rest
            · rw [advance_of_present hp]
              show Meets _ _ (if opensGroup rest then _ else _)
              cases hopen : opensGroup rest with
              | true => exact hk.callAt_meets hgroup hs hl hopen
              | false => exact hk.constantAt_meets hs hl hp hopen
            · rw [advance_of_not_present hp]
              exact hk.name hs hl hp
        | number =>
            rw [operandWith_number d ending hl]
            cases hv : d.literal l.text with
            | error cause => exact hk.literal hs hl hv
            | ok v =>
                obtain ⟨hvalue, hdone⟩ := hk.number hs hl hv
                apply hdone.advance_suffix.map
                rintro s ⟨hs', rfl⟩
                exact ⟨hvalue, hs', List.suffix_cons _ _⟩
        | plus | minus | multiply | divide | power | rightParen | endOfInput | endOfLine =>
            simp [hl] at hother

theorem powersWith_meets (power : V → Rule V) {c : C} {base : V}
    (hpower : ∀ l rest, k.Done n c (l :: rest) → l.kind = .power →
      Meets (fun r => k.After n c (l :: rest) r ∧ Clear power? r.2) k.Bad
        (power base (l :: rest)))
    (hbase : k.Value base) :
    ∀ s, k.Done n c s → Meets (fun r => k.After n c s r ∧ Clear power? r.2) k.Bad
      (powersWith power base s) := by
  intro s hs
  cases s with
  | nil => exact ⟨⟨hbase, hs, List.suffix_refl _⟩, clear_nil _⟩
  | cons l rest =>
      by_cases hl : l.kind = .power
      · simp only [powersWith, if_pos hl]
        exact hpower l rest hs hl
      · simp only [powersWith, if_neg hl]
        exact ⟨⟨hbase, hs, List.suffix_refl _⟩, clear_cons_iff.2 (if_neg hl)⟩

end Levels

/-! ### The rules -/

/-- **The rules for operands and powers keep every contract that their steps keep**, whatever
number of levels is left. -/
theorem operand_powers_meets (hk : k.Kept d ending) :
    ∀ (n : Nat) (c : C),
      (∀ s, k.Owed n c s → Meets (k.After n c s) k.Bad (operand d ending n s)) ∧
      (∀ v s, k.Value v → k.Done n c s →
        Meets (fun r => k.After n c s r ∧ Clear power? r.2) k.Bad (powers d ending n v s)) := by
  intro n
  -- for all contexts at once, since a group takes the hypothesis for its inner context
  induction n with
  | zero =>
      intro c
      constructor
      · exact hk.operandWith_meets fun p rest hopen => hk.groupTooDeep hopen
      · intro v s hv
        refine powersWith_meets (fun _ => tooDeep) ?_ hv s
        intro l rest hs hl
        exact hk.powerTooDeep hs hl
  | succ n ih =>
      intro c
      constructor
      · apply hk.operandWith_meets
        obtain ⟨hoperand, hpowers⟩ := ih (k.inside c)
        exact hk.groupWith_meets (hk.expressionWith_meets hoperand hpowers)
      · intro v s hv
        refine powersWith_meets (powerWith d ending _ _) ?_ hv s
        intro l rest hs hl
        obtain ⟨hoperand, hpowers⟩ := ih c
        have hfactor := hk.factor_meets hoperand hpowers
        rw [powerWith_eq_link]
        have hop : Denotes l.kind .power := .inr (.inr (if_pos hl))
        apply (hk.link_meets hfactor (hk.power hs hl) hs hv hop).mono
        rintro r ⟨⟨hr, hdone, hsuffix⟩, hclear⟩
        -- the chain of powers ends on all its levels at once
        exact ⟨⟨hr, hk.powerEnd hdone, hsuffix.trans (List.suffix_cons _ _)⟩, hclear⟩

/-- An expression keeps the contract and ends before a lexeme that is no operator. -/
theorem expression_meets (hk : k.Kept d ending) {n : Nat} {c : C} {s : List Lexeme}
    (hs : k.Due n c s) :
    Meets (fun r => k.After n c s r ∧ NoOperator r.2) k.Bad
      (expression d ending (operand d ending n) (powers d ending n) s) := by
  obtain ⟨hoperand, hpowers⟩ := hk.operand_powers_meets n c
  exact hk.expressionWith_meets hoperand hpowers s hs

/-- A whole sequence of lexemes has a value that the contract allows, or a fault that it
allows. -/
theorem evaluateLexemes_meets (hk : k.Kept d ending) {n : Nat} {c : C} {lexemes : List Lexeme}
    (hstart : Meets (k.Due n c) k.Bad (advance ending lexemes))
    (hleft : ∀ l rest, k.Done n c (l :: rest) → NoOperator (l :: rest) →
      k.Bad (.misplaced (l :: rest) (l :: rest) .operatorOrEnd)) :
    Meets (fun v => k.Value v ∧ k.Done n c []) k.Bad (evaluateLexemes d ending n lexemes) := by
  rw [evaluateLexemes]
  apply hstart.bind
  intro s hs
  apply (hk.expression_meets hs).bind
  rintro ⟨v, ahead⟩ ⟨⟨hv, hdone, -⟩, hclear⟩
  cases ahead with
  | nil => exact ⟨hv, hdone⟩
  | cons l rest => exact hleft l rest hdone hclear

end Kept

/-! ## Contracts about values -/

/-- The contract that says nothing of places, but that they are among the given lexemes. -/
def ofValues (lexemes : List Lexeme) (Value : V → Prop) (Bad : Fault → Prop) :
    Contract V Unit where
  inside := id
  Due _ _ s := s <:+ lexemes
  Owed _ _ s := s <:+ lexemes
  Done _ _ s := s <:+ lexemes
  Value := Value
  Bad := Bad

end Contract

/-- What the literals among some lexemes and the constants of a domain are, and negation, operations
and functions keep, where all faults that come up satisfy `Bad`. -/
structure KeepsValues (d : Domain V) (lexemes : List Lexeme) (Value : V → Prop)
    (Bad : Fault → Prop) : Prop where
  lexical : Bad .lexical
  misplaced (site ahead expected) : Bad (.misplaced site ahead expected)
  literal : ∀ l ∈ lexemes, l.kind = .number →
    Meets Value Bad ((d.literal l.text).mapError .escaped)
  constant {name v} : d.constant? name = some v → Value v
  negate {v} : Value v → Meets Value Bad ((d.negate v).mapError .escaped)
  operate {l rest ahead op v w} : l :: rest <:+ lexemes → Denotes l.kind op → Value v → Value w →
    Meets (fun r => Value r.1) Bad (applied (l :: rest) ahead (d.operate op v w))
  apply {l rest ahead f v} : l :: rest <:+ lexemes → l.kind = .identifier →
    d.function? l.text = some f → Value v →
    Meets (fun r => Value r.1) Bad (applied (l :: rest) ahead (f v))

namespace KeepsValues

variable {d : Domain V} {lexemes : List Lexeme} {Value : V → Prop} {Bad : Fault → Prop}

theorem advance_meets (h : KeepsValues d lexemes Value Bad) {ending : Ending} {l : Lexeme}
    {rest : List Lexeme} (hs : l :: rest <:+ lexemes) :
    Meets (· <:+ lexemes) Bad (advance ending rest) :=
  meets_advance (fun _ => (List.suffix_cons l rest).trans hs) fun _ => h.lexical

theorem kept (h : KeepsValues d lexemes Value Bad) (ending : Ending) :
    (Contract.ofValues lexemes Value Bad).Kept d ending where
  minus hs _ := h.advance_meets hs
  unsigned hs _ := hs
  number {_ _ l _ v} hs hl hv := by
    have hvalue := h.literal l (hs.subset List.mem_cons_self) hl
    rw [hv] at hvalue
    exact ⟨hvalue, h.advance_meets hs⟩
  literal {_ _ l _ cause} hs hl hv := by
    have hvalue := h.literal l (hs.subset List.mem_cons_self) hl
    rw [hv] at hvalue
    exact hvalue
  name _ _ _ := h.lexical
  constant hs _ _ _ hv := ⟨h.constant hv, (List.suffix_cons _ _).trans hs⟩
  noConstant _ _ _ _ _ := by
    split
    · exact h.misplaced _ _ _
    · exact h.misplaced _ _ _
  noFunction _ _ _ _ := by
    split
    · exact h.misplaced _ _ _
    · exact h.misplaced _ _ _
  noOperand _ _ := h.misplaced _ _ _
  opened hopen := by
    obtain ⟨-, hs | ⟨name, f, -, -, hs⟩⟩ := hopen
    · exact h.advance_meets hs
    · exact h.advance_meets ((List.suffix_cons _ _).trans hs)
  groupTooDeep _ := h.misplaced _ _ _
  closed hs _ := h.advance_meets hs
  unclosed _ _ _ := h.misplaced _ _ _
  operator hs _ := h.advance_meets hs
  power hs _ := h.advance_meets hs
  powerTooDeep _ _ := h.misplaced _ _ _
  powerEnd hs := hs
  negate hv := h.negate hv
  operate hs _ _ hv hw _ hop := h.operate hs hop hv hw
  apply hs hl hf _ _ hv := h.apply hs hl hf hv

/-- **What steps keep, the value of the lexemes is.** -/
theorem evaluateLexemes_meets (h : KeepsValues d lexemes Value Bad) (ending : Ending)
    (limit : Nat) : Meets Value Bad (evaluateLexemes d ending limit lexemes) := by
  have hstart : Meets (· <:+ lexemes) Bad (advance ending lexemes) :=
    meets_advance (fun _ => List.suffix_refl _) fun _ => h.lexical
  exact ((h.kept ending).evaluateLexemes_meets (n := limit) (c := ()) hstart
    fun _ _ _ _ => h.misplaced _ _ _).mono fun _ h => h.1

end KeepsValues

end Calculator
