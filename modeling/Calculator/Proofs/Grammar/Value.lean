import Calculator.Proofs.Grammar.Derivation

/-!
# Values of syntax trees

The value of a syntax tree in a domain, bottom-up and from left to right, or why it has none: the
first step that fails, with the token of its operator or function, or a failure that no step
reports. Nothing here knows of lexemes still to be read.
-/

set_option autoImplicit false

namespace Calculator

variable {V : Type}

/-- Why a tree has no value. -/
inductive Halt where
  /-- The step of an operator or function has no result. -/
  | step (token : Token) (reason : String)
  /-- A failure that is not about a step. -/
  | escaped (cause : Failure)
  /-- A name that the domain does not define; a derived tree has none. -/
  | unknown (name : Token)
deriving DecidableEq, Repr

/-- How a step fails. -/
def Halt.ofMishap (token : Token) : Mishap → Halt
  | .failure cause => step token cause.message
  | .complexResult => step token "complex result"
  | .overflow => step token "overflow"
  | .escaped cause => escaped cause

/-- The value of a tree: operands before their operator, the left one first. -/
def Tree.value (d : Domain V) : Tree → Except Halt V
  | number l => (d.literal l.text).mapError .escaped
  | constant name =>
    match d.constant? name.text with
    | some v => .ok v
    | none => .error (.unknown name)
  | group inner => inner.value d
  | call name argument =>
    match d.function? name.text with
    | some f => do
      let v ← argument.value d
      (f v).mapError (.ofMishap name)
    | none => .error (.unknown name)
  | negative body => do
    let v ← body.value d
    (d.negate v).mapError .escaped
  | binary op operator left right => do
    let v ← left.value d
    let w ← right.value d
    (d.operate op v w).mapError (.ofMishap operator)

/-! ## Measures of derived trees -/

theorem Tree.left_nesting_le (op : Operation) (operator : Token) (left right : Tree) :
    left.nesting ≤ (binary op operator left right).nesting := by
  cases op <;> exact Nat.le_max_left _ _

theorem Tree.right_nesting_le (op : Operation) (operator : Token) (left right : Tree) :
    right.nesting ≤ (binary op operator left right).nesting := by
  cases op with
  | power => exact Nat.le_trans (Nat.le_succ _) (Nat.le_max_right _ _)
  | add | subtract | multiply | divide => exact Nat.le_max_right _ _

/-- Sums and products take no level of their own. -/
theorem Tree.nesting_binary_le {p : Precedence} {kind : TokenKind} {op : Operation}
    {operator : Token} {left right : Tree} {n : Nat} (hop : p.operator? kind = some op)
    (hl : left.nesting ≤ n) (hr : right.nesting ≤ n) :
    (binary op operator left right).nesting ≤ n := by
  have hne : op ≠ .power := by
    rintro rfl
    cases p <;> cases kind <;> cases hop
  cases op with
  | power => exact absurd rfl hne
  | add | subtract | multiply | divide => exact Nat.max_le.2 ⟨hl, hr⟩

/-- The literals of a tree. -/
def Tree.literals : Tree → List Token
  | number l => [l]
  | constant _ => []
  | group inner => inner.literals
  | call _ argument => argument.literals
  | negative body => body.literals
  | binary _ _ left right => left.literals ++ right.literals

/-- The tree that stands before a tail or before powers. -/
def Part.before? : Part → Option Tree
  | tail _ left => some left
  | powers base => some base
  | _ => none

theorem Precedence.before_linked (p : Precedence) : p.linked.before? = none := by
  cases p <;> rfl

namespace Derives

variable {x : Lexicon}

/-- What a part leaves is an end of what it was derived from. -/
theorem suffix {p : Part} {ts us : List Token} {t : Tree} (h : Derives x p ts t us) :
    us <:+ ts := by
  induction h with
  | chain _ _ ih₁ ih₂ => exact ih₂.trans ih₁
  | tailEnd => exact List.suffix_refl _
  | tailStep _ _ _ ih₁ ih₂ => exact (ih₂.trans ih₁).trans (List.suffix_cons _ _)
  | positive _ _ ih₁ ih₂ => exact ih₂.trans ih₁
  | negative _ _ _ ih₁ ih₂ => exact (ih₂.trans ih₁).trans (List.suffix_cons _ _)
  | powersEnd => exact List.suffix_refl _
  | power _ _ ih => exact ih.trans (List.suffix_cons _ _)
  | number _ => exact List.suffix_cons _ _
  | constant _ _ => exact List.suffix_cons _ _
  | group _ _ _ ih => exact ((List.suffix_cons _ _).trans ih).trans (List.suffix_cons _ _)
  | call _ _ _ _ _ ih =>
      exact (((List.suffix_cons _ _).trans ih).trans (List.suffix_cons _ _)).trans
        (List.suffix_cons _ _)

/-- The tree of a tail or of powers nests at least as deep as what stands before. -/
theorem nesting_before_le {p : Part} {ts us : List Token} {t : Tree} (h : Derives x p ts t us) :
    ∀ b ∈ p.before?, b.nesting ≤ t.nesting := by
  induction h with
  | tailEnd =>
      intro b hb
      obtain rfl := Option.some.inj hb
      exact Nat.le_refl _
  | tailStep _ _ _ _ ih =>
      intro b hb
      obtain rfl := Option.some.inj hb
      exact Nat.le_trans (Tree.left_nesting_le _ _ _ _) (ih _ rfl)
  | powersEnd =>
      intro b hb
      obtain rfl := Option.some.inj hb
      exact Nat.le_refl _
  | power _ _ _ =>
      intro b hb
      obtain rfl := Option.some.inj hb
      exact Tree.left_nesting_le _ _ _ _
  | chain | positive | negative | number | constant | group | call =>
      intro b hb
      cases hb

/-- What holds of the numbers among the tokens holds of the literals of their tree, if it holds of
those of the tree that stands before. -/
theorem forall_literals {P : Token → Prop} {p : Part} {ts us : List Token} {t : Tree}
    (h : Derives x p ts t us) (hts : ∀ l ∈ ts, l.kind = .number → P l)
    (hbefore : ∀ b ∈ p.before?, ∀ l ∈ b.literals, P l) : ∀ l ∈ t.literals, P l := by
  induction h with
  | chain h₁ _ ih₁ ih₂ =>
      have hleft := ih₁ hts (Precedence.before_linked _ ▸ fun _ hb => nomatch hb)
      refine ih₂ (fun l hl => hts l (h₁.suffix.subset hl)) ?_
      intro b hb
      obtain rfl := Option.some.inj hb
      exact hleft
  | tailEnd => exact hbefore _ rfl
  | tailStep _ h₁ _ ih₁ ih₂ =>
      have hrest := fun l hl => hts l (List.mem_cons_of_mem _ hl)
      have hright := ih₁ hrest (Precedence.before_linked _ ▸ fun _ hb => nomatch hb)
      refine ih₂ (fun l hl => hrest l (h₁.suffix.subset hl)) ?_
      intro b hb l hl
      obtain rfl := Option.some.inj hb
      exact (List.mem_append.1 hl).elim (hbefore _ rfl l) (hright l)
  | positive h₁ _ ih₁ ih₂ =>
      have hbase := ih₁ hts fun _ hb => nomatch hb
      refine ih₂ (fun l hl => hts l (h₁.suffix.subset hl)) ?_
      intro b hb
      obtain rfl := Option.some.inj hb
      exact hbase
  | negative _ h₁ _ ih₁ ih₂ =>
      have hrest := fun l hl => hts l (List.mem_cons_of_mem _ hl)
      have hbase := ih₁ hrest fun _ hb => nomatch hb
      refine ih₂ (fun l hl => hrest l (h₁.suffix.subset hl)) ?_
      intro b hb
      obtain rfl := Option.some.inj hb
      exact hbase
  | powersEnd => exact hbefore _ rfl
  | power _ _ ih =>
      have hexponent := ih (fun l hl => hts l (List.mem_cons_of_mem _ hl)) fun _ hb => nomatch hb
      intro l hl
      exact (List.mem_append.1 hl).elim (hbefore _ rfl l) (hexponent l)
  | number hkind =>
      intro l hl
      obtain rfl := List.mem_singleton.1 hl
      exact hts l List.mem_cons_self hkind
  | constant _ _ => exact fun _ hl => nomatch hl
  | group _ _ _ ih =>
      exact ih (fun l hl => hts l (List.mem_cons_of_mem _ hl)) fun _ hb => nomatch hb
  | call _ _ _ _ _ ih =>
      exact ih (fun l hl => hts l (List.mem_cons_of_mem _ (List.mem_cons_of_mem _ hl)))
        fun _ hb => nomatch hb

end Derives

end Calculator
