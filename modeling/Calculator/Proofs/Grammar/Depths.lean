import Calculator.Proofs.Grammar.Agreement

/-!
# Depths

The tokens that take a level of nesting are the opening parentheses and the operators of powers. The
depths of a tree are the levels that are taken when each of them is entered, in the order of the
source (`Tree.depths`, `Derives.spans`). The deepest of them is the nesting of the tree
(`Tree.nesting_le_iff`), since a group and a chain of powers give back their levels where they end.

A rule with too few levels for a tree stops at the first token that is deeper than its levels
(`Derives.overruns`), if the tree has a value, so that nothing fails before.
-/

set_option autoImplicit false

namespace Calculator

variable {V : Type}

/-! ## The depths of a tree -/

/-- The tokens that take a level of nesting. -/
def Token.takesLevel (t : Token) : Bool := t.kind = .leftParen || t.kind = .power

/-- The depths to which the tokens of a tree that take a level come, from left to right. -/
def Tree.depths : Tree → List Nat
  | number _ | constant _ => []
  | group inner => 1 :: inner.depths.map (· + 1)
  | call _ argument => 1 :: argument.depths.map (· + 1)
  | negative body => body.depths
  | binary .power _ base exponent => base.depths ++ 1 :: exponent.depths.map (· + 1)
  | binary _ _ left right => left.depths ++ right.depths

theorem forall_deeper_iff {ds : List Nat} {n : Nat} :
    (∀ m ∈ 1 :: ds.map (· + 1), m ≤ n + 1) ↔ ∀ m ∈ ds, m ≤ n := by
  simp

theorem not_forall_deeper_zero {ds : List Nat} : ¬ ∀ m ∈ 1 :: ds.map (· + 1), m ≤ 0 :=
  fun h => absurd (h 1 List.mem_cons_self) (by omega)

/-- **The nesting of a tree is its greatest depth.** -/
theorem Tree.nesting_le_iff (t : Tree) : ∀ n, t.nesting ≤ n ↔ ∀ m ∈ t.depths, m ≤ n := by
  induction t with
  | number literal => simp [nesting, depths]
  | constant name => simp [nesting, depths]
  | group inner ih =>
      rintro (_ | n)
      · exact ⟨fun h => absurd h (Nat.not_succ_le_zero _), fun h => absurd h not_forall_deeper_zero⟩
      · rw [depths, forall_deeper_iff, ← ih n]
        exact Nat.succ_le_succ_iff
  | call name argument ih =>
      rintro (_ | n)
      · exact ⟨fun h => absurd h (Nat.not_succ_le_zero _), fun h => absurd h not_forall_deeper_zero⟩
      · rw [depths, forall_deeper_iff, ← ih n]
        exact Nat.succ_le_succ_iff
  | negative body ih => exact ih
  | binary op operator left right ihl ihr =>
      intro n
      cases op with
      | power =>
          rw [depths, nesting, Nat.max_le, List.forall_mem_append, ihl n]
          cases n with
          | zero =>
              exact ⟨fun h => absurd h.2 (Nat.not_succ_le_zero _),
                fun h => absurd h.2 not_forall_deeper_zero⟩
          | succ n =>
              rw [forall_deeper_iff, ← ihr n]
              exact and_congr_right fun _ => Nat.succ_le_succ_iff
      | add | subtract | multiply | divide =>
          simp only [depths, nesting, Nat.max_le, List.forall_mem_append, ihl n, ihr n]

theorem Tree.depths_binary {p : Precedence} {kind : TokenKind} {op : Operation} {operator : Token}
    {left right : Tree} (hop : p.operator? kind = some op) :
    (binary op operator left right).depths = left.depths ++ right.depths := by
  cases op with
  | power => cases p <;> cases kind <;> cases hop
  | add | subtract | multiply | divide => rfl

/-- The depths of the tree that stands before a tail or before powers. -/
def Part.depthsBefore : Part → List Nat
  | tail _ left => left.depths
  | powers base => base.depths
  | _ => []

theorem Precedence.depthsBefore_linked (p : Precedence) : p.linked.depthsBefore = [] := by
  cases p <;> rfl

theorem takesLevel_eq_false {t : Token} {kind : TokenKind} (h : t.kind = kind)
    (hkind : kind ≠ .leftParen ∧ kind ≠ .power) : t.takesLevel = false := by
  simp [Token.takesLevel, h, hkind.1, hkind.2]

theorem not_takesLevel_of_operator {p : Precedence} {o : Token} {op : Operation}
    (h : p.operator? o.kind = some op) : o.takesLevel = false := by
  refine takesLevel_eq_false rfl ⟨?_, ?_⟩
  · intro ho
    rw [ho] at h
    cases p <;> cases h
  · intro ho
    rw [ho] at h
    cases p <;> cases h

/-- The front that is used up has as many tokens that take a level as there are depths. -/
def Spans (ts us : List Token) (depths : List Nat) : Prop :=
  ∃ front, ts = front ++ us ∧ front.countP Token.takesLevel = depths.length

namespace Spans

variable {ts us vs : List Token} {ds es : List Nat}

theorem refl (ts : List Token) : Spans ts ts [] := ⟨[], rfl, rfl⟩

theorem append (h : Spans ts us ds) (h' : Spans us vs es) : Spans ts vs (ds ++ es) := by
  obtain ⟨front, rfl, hcount⟩ := h
  obtain ⟨front', rfl, hcount'⟩ := h'
  refine ⟨front ++ front', (List.append_assoc _ _ _).symm, ?_⟩
  rw [List.countP_append, hcount, hcount', List.length_append]

theorem pass {o : Token} (ho : o.takesLevel = false) (h : Spans ts us ds) :
    Spans (o :: ts) us ds := by
  obtain ⟨front, rfl, hcount⟩ := h
  refine ⟨o :: front, rfl, ?_⟩
  rw [List.countP_cons_of_neg (Bool.eq_false_iff.1 ho), hcount]

theorem enter {o : Token} (ho : o.takesLevel = true) (h : Spans ts us ds) :
    Spans (o :: ts) us (1 :: ds.map (· + 1)) := by
  obtain ⟨front, rfl, hcount⟩ := h
  refine ⟨o :: front, rfl, ?_⟩
  rw [List.countP_cons_of_pos ho, hcount, List.length_cons, List.length_map]

/-- A closing parenthesis takes no level. -/
theorem close {r : Token} (hr : r.kind = .rightParen) (h : Spans ts (r :: us) ds) :
    Spans ts us ds := by
  obtain ⟨front, rfl, hcount⟩ := h
  refine ⟨front ++ [r], (List.append_cons front r us), ?_⟩
  have hlevel : r.takesLevel = false := takesLevel_eq_false hr (by decide)
  rw [List.countP_append, List.countP_cons_of_neg (Bool.eq_false_iff.1 hlevel), hcount]
  rfl

end Spans

theorem takesLevel_leftParen {t : Token} (h : t.kind = .leftParen) : t.takesLevel = true := by
  simp [Token.takesLevel, h]

theorem takesLevel_power {t : Token} (h : t.kind = .power) : t.takesLevel = true := by
  simp [Token.takesLevel, h]

/-- Each token of a part that takes a level has its depth in the tree, behind the depths of what
stands before. -/
theorem Derives.spans {x : Lexicon} {p : Part} {ts us : List Token} {t : Tree}
    (h : Derives x p ts t us) :
    ∃ own, t.depths = p.depthsBefore ++ own ∧ Spans ts us own := by
  induction h with
  | @chain p _ _ _ _ _ _ _ ih₁ ih₂ =>
      obtain ⟨own₁, hown₁, hspans₁⟩ := ih₁
      obtain ⟨own₂, hown₂, hspans₂⟩ := ih₂
      rw [p.depthsBefore_linked, List.nil_append] at hown₁
      subst hown₁
      exact ⟨_, hown₂, hspans₁.append hspans₂⟩
  | tailEnd => exact ⟨[], (List.append_nil _).symm, .refl _⟩
  | @tailStep p _ _ _ _ _ _ _ _ hop _ _ ih₁ ih₂ =>
      obtain ⟨own₁, hown₁, hspans₁⟩ := ih₁
      obtain ⟨own₂, hown₂, hspans₂⟩ := ih₂
      rw [p.depthsBefore_linked, List.nil_append] at hown₁
      subst hown₁
      refine ⟨_ ++ own₂, ?_, (hspans₁.append hspans₂).pass (not_takesLevel_of_operator hop)⟩
      rw [hown₂, Part.depthsBefore, Tree.depths_binary hop, Part.depthsBefore, List.append_assoc]
  | positive _ _ ih₁ ih₂ =>
      obtain ⟨own₁, hown₁, hspans₁⟩ := ih₁
      obtain ⟨own₂, hown₂, hspans₂⟩ := ih₂
      obtain rfl : _ = own₁ := hown₁
      exact ⟨_, hown₂, hspans₁.append hspans₂⟩
  | negative hm _ _ ih₁ ih₂ =>
      obtain ⟨own₁, hown₁, hspans₁⟩ := ih₁
      obtain ⟨own₂, hown₂, hspans₂⟩ := ih₂
      obtain rfl : _ = own₁ := hown₁
      exact ⟨_, hown₂, (hspans₁.append hspans₂).pass (takesLevel_eq_false hm (by decide))⟩
  | powersEnd => exact ⟨[], (List.append_nil _).symm, .refl _⟩
  | power ho _ ih =>
      obtain ⟨own, hown, hspans⟩ := ih
      obtain rfl : _ = own := hown
      exact ⟨_, rfl, hspans.enter (takesLevel_power ho)⟩
  | number hl => exact ⟨[], rfl, (Spans.refl _).pass (takesLevel_eq_false hl (by decide))⟩
  | constant hn _ => exact ⟨[], rfl, (Spans.refl _).pass (takesLevel_eq_false hn (by decide))⟩
  | group hl _ hr ih =>
      obtain ⟨own, hown, hspans⟩ := ih
      obtain rfl : _ = own := hown
      exact ⟨_, rfl, (hspans.close hr).enter (takesLevel_leftParen hl)⟩
  | call hn _ hl _ hr ih =>
      obtain ⟨own, hown, hspans⟩ := ih
      obtain rfl : _ = own := hown
      exact ⟨_, rfl, ((hspans.close hr).enter (takesLevel_leftParen hl)).pass
        (takesLevel_eq_false hn (by decide))⟩

theorem Tree.value_binary {d : Domain V} {op : Operation} {operator : Token} {left right : Tree}
    {v : V} (h : (binary op operator left right).value d = .ok v) :
    ∃ w w', left.value d = .ok w ∧ right.value d = .ok w' ∧ d.operate op w w' = .ok v := by
  rw [value] at h
  cases hl : left.value d with
  | error halt =>
      rw [hl] at h
      cases h
  | ok w =>
      cases hr : right.value d with
      | error halt =>
          rw [hl, hr] at h
          cases h
      | ok w' =>
          rw [hl, hr] at h
          change (d.operate op w w').mapError (Halt.ofMishap operator) = .ok v at h
          cases hop : d.operate op w w' with
          | error m =>
              rw [hop] at h
              cases h
          | ok z =>
              rw [hop] at h
              obtain rfl := Except.ok.inj h
              exact ⟨w, w', rfl, rfl, hop⟩

/-- What stands before a tail or before powers has a value if the whole has one. -/
theorem Derives.value_before {d : Domain V} {x : Lexicon} {p : Part} {ts us : List Token} {t : Tree}
    (h : Derives x p ts t us) :
    ∀ b ∈ p.before?, ∀ v, t.value d = .ok v → ∃ w, b.value d = .ok w := by
  induction h with
  | tailEnd =>
      intro b hb v hv
      obtain rfl := Option.some.inj hb
      exact ⟨v, hv⟩
  | tailStep _ _ _ _ ih =>
      intro b hb v hv
      obtain rfl := Option.some.inj hb
      obtain ⟨w, hw⟩ := ih _ rfl v hv
      obtain ⟨w', -, hw', -⟩ := Tree.value_binary hw
      exact ⟨w', hw'⟩
  | powersEnd =>
      intro b hb v hv
      obtain rfl := Option.some.inj hb
      exact ⟨v, hv⟩
  | power _ _ _ =>
      intro b hb v hv
      obtain rfl := Option.some.inj hb
      obtain ⟨w', -, hw', -⟩ := Tree.value_binary hv
      exact ⟨w', hw'⟩
  | chain | positive | negative | number | constant | group | call =>
      intro b hb
      cases hb

/-! ## The first token beyond a limit -/

/-- `site` starts with the first token that comes to a depth beyond `n`. The depths are those of the
tokens of `ts` that take a level. -/
def FirstBeyond (n : Nat) (ts : List Token) (depths : List Nat) (site : List Token) : Prop :=
  ∃ front ds es, ts = front ++ site ∧ depths = ds ++ (n + 1) :: es ∧
    front.countP Token.takesLevel = ds.length ∧ (∀ m ∈ ds, m ≤ n) ∧
    ∃ o ∈ site.head?, o.takesLevel = true

namespace FirstBeyond

variable {n : Nat} {ts us site : List Token} {ds es : List Nat}

theorem append (h : FirstBeyond n ts ds site) (es : List Nat) :
    FirstBeyond n ts (ds ++ es) site := by
  obtain ⟨front, ds₁, ds₂, hts, rfl, hrest⟩ := h
  exact ⟨front, ds₁, ds₂ ++ es, hts, List.append_assoc _ _ _, hrest⟩

/-- What is not too deep comes before. -/
theorem after (hspans : Spans ts us ds) (hds : ∀ m ∈ ds, m ≤ n) (h : FirstBeyond n us es site) :
    FirstBeyond n ts (ds ++ es) site := by
  obtain ⟨front, rfl, hcount⟩ := hspans
  obtain ⟨front', ds₁, ds₂, rfl, rfl, hcount', hds₁, ho⟩ := h
  refine ⟨front ++ front', ds ++ ds₁, ds₂, (List.append_assoc _ _ _).symm,
    (List.append_assoc _ _ _).symm, ?_, List.forall_mem_append.2 ⟨hds, hds₁⟩, ho⟩
  rw [List.countP_append, hcount, hcount', List.length_append]

theorem pass {o : Token} (ho : o.takesLevel = false) (h : FirstBeyond n ts ds site) :
    FirstBeyond n (o :: ts) ds site :=
  after ((Spans.refl ts).pass ho) (fun _ hm => nomatch hm) h

/-- Inside a group or behind the operator of a power every token is one level deeper. -/
theorem enter {o : Token} (ho : o.takesLevel = true) (h : FirstBeyond n ts ds site) :
    FirstBeyond (n + 1) (o :: ts) (1 :: ds.map (· + 1)) site := by
  obtain ⟨front, ds₁, ds₂, rfl, rfl, hcount, hds₁, hsite⟩ := h
  refine ⟨o :: front, 1 :: ds₁.map (· + 1), ds₂.map (· + 1), rfl, ?_, ?_,
    forall_deeper_iff.2 hds₁, hsite⟩
  · simp only [List.map_append, List.map_cons, List.cons_append]
  · rw [List.countP_cons_of_pos ho, hcount, List.length_cons, List.length_map]

/-- Where no level is left, the first token that takes one is beyond the limit. -/
theorem here {o : Token} (ho : o.takesLevel = true) (ts : List Token) (ds : List Nat) :
    FirstBeyond 0 (o :: ts) (1 :: ds) (o :: ts) :=
  ⟨[], [], ds, rfl, rfl, rfl, List.forall_mem_nil _, o, rfl, ho⟩

end FirstBeyond

/-! ## Rules with too few levels -/

/-- The outcome where no level is left at the first token of `site`. -/
def stopAt (site : List Token) : Except Fault (V × List Lexeme) :=
  .error (.misplaced (plain site) (plain site) .depth)

section Rules

variable (d : Domain V)

/-- The rule of a part with `n` levels stops at the first token beyond them, on the tokens `ts` of
the tree `t`. A tail goes on from the value of what stands before it. -/
def Part.Overruns (n : Nat) : Part → List Token → Tree → Prop
  | operand, ts, t => ∃ site, FirstBeyond n ts t.depths site ∧
    Calculator.operand d .complete n (plain ts) = stopAt site
  | factor, ts, t => ∃ site, FirstBeyond n ts t.depths site ∧
    linkedRule d .complete n .product (plain ts) = stopAt site
  | powers base, ts, t => ∀ v, ∃ own site, t.depths = base.depths ++ own ∧
    FirstBeyond n ts own site ∧ Calculator.powers d .complete n v (plain ts) = stopAt site
  | chain p, ts, t => ∃ site, FirstBeyond n ts t.depths site ∧
    Calculator.chain d .complete p.operator? (linkedRule d .complete n p) (plain ts) = stopAt site
  | tail p left, ts, t => ∀ v bound, left.value d = .ok v → ts.length ≤ bound.length →
    ∃ own site, t.depths = left.depths ++ own ∧ FirstBeyond n ts own site ∧
      chainFrom d .complete p.operator? (linkedRule d .complete n p) bound v (plain ts) =
        stopAt site

variable {d}

theorem linked_overruns {n : Nat} {p : Precedence} {ts : List Token} {t : Tree}
    (h : p.linked.Overruns d n ts t) :
    ∃ site, FirstBeyond n ts t.depths site ∧
      linkedRule d .complete n p (plain ts) = stopAt site := by
  cases p with
  | sum =>
      rw [linkedRule, term_eq]
      exact h
  | product => exact h

theorem Agrees.eq_ok {ts us : List Token} {v : V} {y : Except Fault (V × List Lexeme)}
    (h : Agrees ts us (.ok v) y) : y = .ok (v, plain us) := by
  cases h
  rfl

/-- Within the levels, a rule comes to the value of the tree. -/
theorem Derives.operand_within {n : Nat} {ts us : List Token} {t : Tree} {v : V}
    (h : Derives d.lexicon .operand ts t us) (hn : t.nesting ≤ n) (hs : Stops .operand us)
    (hv : t.value d = .ok v) : operand d .complete n (plain ts) = .ok (v, plain us) := by
  have hagrees := h.agrees n hn hs (List.suffix_refl _)
  simp only [Part.Agrees, hv] at hagrees
  exact hagrees.eq_ok

theorem Derives.linked_within {n : Nat} {p : Precedence} {ts us : List Token} {t : Tree} {v : V}
    (h : Derives d.lexicon p.linked ts t us) (hn : t.nesting ≤ n) (hs : Stops p.linked us)
    (hv : t.value d = .ok v) : linkedRule d .complete n p (plain ts) = .ok (v, plain us) := by
  have hagrees := linked_agrees (h.agrees n hn hs (List.suffix_refl _))
  rw [hv] at hagrees
  exact hagrees.eq_ok

section Cases

variable {n : Nat} {ts us vs : List Token}

/-! ### Chains -/

/-- A chain stops where its first link does, or behind it. -/
theorem chain_overruns {p : Precedence} {left t : Tree} {v : V}
    (hleft : Derives d.lexicon p.linked ts left us)
    (htail : Derives d.lexicon (.tail p left) us t vs)
    (hs : Stops p.linked us) (hv : left.value d = .ok v)
    (hfirst : n < left.nesting → p.linked.Overruns d n ts left)
    (hrest : left.nesting ≤ n → (Part.tail p left).Overruns d n us t) :
    (Part.chain p).Overruns d n ts t := by
  obtain ⟨own, hown, hspans⟩ := hleft.spans
  rw [p.depthsBefore_linked, List.nil_append] at hown
  subst hown
  by_cases hn : left.nesting ≤ n
  · have hlink := hleft.linked_within hn hs hv
    obtain ⟨own, site, hdepths, hbeyond, hloop⟩ := hrest hn v (plain us) hv (by simp [plain])
    refine ⟨site, ?_, ?_⟩
    · rw [hdepths]
      exact hbeyond.after hspans ((left.nesting_le_iff n).1 hn)
    · rw [Calculator.chain, hlink]
      exact hloop
  · obtain ⟨site, hbeyond, hlink⟩ := linked_overruns (hfirst (Nat.lt_of_not_le hn))
    obtain ⟨own, hdepths, -⟩ := htail.spans
    refine ⟨site, ?_, ?_⟩
    · rw [hdepths]
      exact hbeyond.append own
    · rw [Calculator.chain, hlink]
      rfl

theorem tailStep_overruns {p : Precedence} {left right t : Tree} {o : Token} {op : Operation}
    {w : V} (hop : p.operator? o.kind = some op) (hright : Derives d.lexicon p.linked ts right us)
    (htail : Derives d.lexicon (.tail p (.binary op o left right)) us t vs)
    (hs : Stops p.linked us) (hw : (Tree.binary op o left right).value d = .ok w)
    (hfirst : n < right.nesting → p.linked.Overruns d n ts right)
    (hrest : right.nesting ≤ n → (Part.tail p (.binary op o left right)).Overruns d n us t) :
    (Part.tail p left).Overruns d n (o :: ts) t := by
  intro v bound hv hbound
  obtain ⟨v', w', hv', hw', hoperate⟩ := Tree.value_binary hw
  obtain rfl := Except.ok.inj (hv.symm.trans hv')
  obtain ⟨own, hown, hspans⟩ := hright.spans
  rw [p.depthsBefore_linked, List.nil_append] at hown
  subst hown
  obtain ⟨b, bound, rfl⟩ : ∃ b rest, bound = b :: rest := by
    cases bound with
    | nil => simp at hbound
    | cons b rest => exact ⟨b, rest, rfl⟩
  have ho := not_takesLevel_of_operator hop
  simp only [plain_cons, chainFrom_cons_of_some d .complete hop, link, advance_complete]
  by_cases hn : right.nesting ≤ n
  · -- the operator joins both values, and the loop goes on
    have hlink := hright.linked_within hn hs hw'
    have hlen : us.length ≤ bound.length :=
      Nat.le_trans hright.suffix.length_le (Nat.le_of_succ_le_succ hbound)
    obtain ⟨own, site, hdepths, hbeyond, hloop⟩ := hrest hn w bound hw hlen
    refine ⟨right.depths ++ own, site, ?_, ?_, ?_⟩
    · rw [hdepths, Tree.depths_binary hop, List.append_assoc]
    · exact (hbeyond.after hspans ((right.nesting_le_iff n).1 hn)).pass ho
    · show (linkedRule d .complete n p (plain ts) >>= _) >>= _ = _
      rw [hlink]
      show (applied _ (plain us) (d.operate op v w') >>= _) = _
      rw [hoperate]
      exact hloop
  · obtain ⟨site, hbeyond, hlink⟩ := linked_overruns (hfirst (Nat.lt_of_not_le hn))
    obtain ⟨own, hdepths, -⟩ := htail.spans
    refine ⟨right.depths ++ own, site, ?_, (hbeyond.append own).pass ho, ?_⟩
    · rw [hdepths, Part.depthsBefore, Tree.depths_binary hop, List.append_assoc]
    · show (linkedRule d .complete n p (plain ts) >>= _) >>= _ = _
      rw [hlink]
      rfl

/-! ### Factors -/

/-- An operand with its powers stops where the operand does, or behind it. -/
theorem body_overruns {base t : Tree} {v : V} (hoperand : Derives d.lexicon .operand ts base us)
    (hpowers : Derives d.lexicon (.powers base) us t vs) (hs : Stops .operand us)
    (hv : base.value d = .ok v)
    (hfirst : n < base.nesting → (Part.operand).Overruns d n ts base)
    (hrest : base.nesting ≤ n → (Part.powers base).Overruns d n us t) :
    ∃ site, FirstBeyond n ts t.depths site ∧
      (operand d .complete n (plain ts) >>= fun r => powers d .complete n r.1 r.2) =
        stopAt site := by
  obtain ⟨own, hown, hspans⟩ := hoperand.spans
  obtain rfl : base.depths = own := hown
  by_cases hn : base.nesting ≤ n
  · have hbase := hoperand.operand_within hn hs hv
    obtain ⟨own, site, hdepths, hbeyond, hchain⟩ := hrest hn v
    refine ⟨site, ?_, ?_⟩
    · rw [hdepths]
      exact hbeyond.after hspans ((base.nesting_le_iff n).1 hn)
    · rw [hbase]
      exact hchain
  · obtain ⟨site, hbeyond, hbase⟩ := hfirst (Nat.lt_of_not_le hn)
    obtain ⟨own, hdepths, -⟩ := hpowers.spans
    refine ⟨site, ?_, ?_⟩
    · rw [hdepths]
      exact hbeyond.append own
    · rw [hbase]
      rfl

theorem factor_of_body {negated : Bool} {s : List Lexeme} {site : List Token}
    (hsign : signAt .complete s = .ok (negated, plain ts))
    (hbody : (operand d .complete n (plain ts) >>= fun r => powers d .complete n r.1 r.2) =
      stopAt site) : linkedRule d .complete n .product s = stopAt site := by
  simp only [linkedRule, factor, hsign]
  show (operand d .complete n (plain ts) >>= fun r => powers d .complete n r.1 r.2 >>= _) = _
  rw [← bind_assoc, hbody]
  rfl

theorem power_overruns {o : Token} {base exponent : Tree} (ho : o.kind = .power)
    (hfirst : ∀ m, n = m + 1 → (Part.factor).Overruns d m ts exponent) :
    (Part.powers base).Overruns d n (o :: ts) (.binary .power o base exponent) := by
  intro v
  rcases n with _ | n
  · refine ⟨_, o :: ts, rfl, .here (takesLevel_power ho) _ _, ?_⟩
    rw [powers_eq]
    simp only [plain_cons, powersWith, if_pos ho, powerRule]
    rfl
  · obtain ⟨site, hbeyond, hfactor⟩ := hfirst n rfl
    refine ⟨_, site, rfl, hbeyond.enter (takesLevel_power ho), ?_⟩
    rw [powers_eq]
    simp only [plain_cons, powersWith, if_pos ho, powerRule]
    rw [powerWith_eq_link, link, advance_complete]
    show linkedRule d .complete n .product (plain ts) >>= _ = _
    rw [hfactor]
    rfl

/-! ### Operands -/

/-- A group stops at its parenthesis where no level is left, else inside. -/
theorem groupRule_overruns {l : Token} {t : Tree} (hl : l.kind = .leftParen)
    (hfirst : ∀ m, n = m + 1 → (Part.chain .sum).Overruns d m ts t) :
    ∃ site, FirstBeyond n (l :: ts) (1 :: t.depths.map (· + 1)) site ∧
      groupRule d .complete n (plain (l :: ts)) = stopAt site := by
  rcases n with _ | n
  · exact ⟨l :: ts, .here (takesLevel_leftParen hl) _ _, rfl⟩
  · obtain ⟨site, hbeyond, hinner⟩ := hfirst n rfl
    refine ⟨site, hbeyond.enter (takesLevel_leftParen hl), ?_⟩
    simp only [groupRule, groupWith, plain_cons, List.drop_succ_cons, List.drop_zero,
      advance_complete]
    show groupBody .complete (expression d .complete _ _) (plain ts) = _
    rw [groupBody, expression_eq]
    exact congrArg (· >>= _) hinner

theorem group_overruns {l : Token} {t : Tree} (hl : l.kind = .leftParen)
    (hfirst : ∀ m, n = m + 1 → (Part.chain .sum).Overruns d m ts t) :
    (Part.operand).Overruns d n (l :: ts) (.group t) := by
  obtain ⟨site, hbeyond, hgroup⟩ := groupRule_overruns hl hfirst
  refine ⟨site, hbeyond, ?_⟩
  rw [operand_eq, plain_cons, operandWith_leftParen d .complete hl]
  exact hgroup

theorem call_overruns {name l : Token} {t : Tree} {f : V → Except Mishap V}
    (hname : name.kind = .identifier) (hf : d.function? name.text = some f)
    (hl : l.kind = .leftParen)
    (hfirst : ∀ m, n = m + 1 → (Part.chain .sum).Overruns d m ts t) :
    (Part.operand).Overruns d n (name :: l :: ts) (.call name t) := by
  obtain ⟨site, hbeyond, hgroup⟩ := groupRule_overruns hl hfirst
  have hopen : opensGroup (plain (l :: ts)) = true := by simp [opensGroup, hl]
  refine ⟨site, hbeyond.pass (takesLevel_eq_false hname (by decide)), ?_⟩
  rw [operand_eq, plain_cons, operandWith_identifier d .complete hname, advance_complete]
  show (if opensGroup (plain (l :: ts)) then _ else _) = _
  rw [if_pos hopen, callAt, hf]
  show groupRule d .complete n (plain (l :: ts)) >>= _ = _
  rw [hgroup]
  rfl

end Cases

/-! ### All parts -/

theorem Tree.value_negative {t : Tree} {v : V} (h : (negative t).value d = .ok v) :
    ∃ w, t.value d = .ok w := by
  rw [value] at h
  cases ht : t.value d with
  | error halt =>
      rw [ht] at h
      cases h
  | ok w => exact ⟨w, rfl⟩

theorem Tree.value_call {name : Token} {t : Tree} {v : V} (h : (call name t).value d = .ok v) :
    ∃ w, t.value d = .ok w := by
  rw [value] at h
  cases hf : d.function? name.text with
  | none =>
      rw [hf] at h
      cases h
  | some f =>
      rw [hf] at h
      cases ht : t.value d with
      | error halt =>
          rw [ht] at h
          cases h
      | ok w => exact ⟨w, rfl⟩

/-- **A rule with too few levels stops at the first token beyond them**, if the tree has a value and
what stands before the part is within the levels. -/
theorem Derives.overruns {p : Part} {ts us : List Token} {t : Tree}
    (h : Derives d.lexicon p ts t us) :
    ∀ n v, n < t.nesting → (∀ b ∈ p.before?, b.nesting ≤ n) → t.value d = .ok v → Stops p us →
      p.Overruns d n ts t := by
  induction h with
  | chain h₁ h₂ ih₁ ih₂ =>
      intro n v hn _ hv hs
      obtain ⟨w, hw⟩ := h₂.value_before _ rfl v hv
      have hstops := h₂.stops_before_tail hs
      refine chain_overruns h₁ h₂ hstops hw ?_ ?_
      · intro hleft
        exact ih₁ n w hleft (Precedence.before_linked _ ▸ fun _ hb => nomatch hb) hw hstops
      · intro hleft
        refine ih₂ n v hn ?_ hv hs
        intro b hb
        obtain rfl := Option.some.inj hb
        exact hleft
  | tailEnd =>
      intro n v hn hbefore _ _
      exact absurd (hbefore _ rfl) (Nat.not_le_of_lt hn)
  | @tailStep p left o op ts right us t vs hop h₁ h₂ ih₁ ih₂ =>
      intro n v hn hbefore hv hs
      obtain ⟨w, hw⟩ := h₂.value_before _ rfl v hv
      obtain ⟨-, w', -, hw', -⟩ := Tree.value_binary hw
      have hstops := h₂.stops_before_tail hs
      refine tailStep_overruns hop h₁ h₂ hstops hw ?_ ?_
      · intro hright
        exact ih₁ n w' hright (Precedence.before_linked _ ▸ fun _ hb => nomatch hb) hw' hstops
      · intro hright
        refine ih₂ n v hn ?_ hv hs
        intro b hb
        obtain rfl := Option.some.inj hb
        exact Tree.nesting_binary_le hop (hbefore _ rfl) hright
  | positive h₁ h₂ ih₁ ih₂ =>
      intro n v hn _ hv hs
      obtain ⟨w, hw⟩ := h₂.value_before _ rfl v hv
      have hstops := h₂.stops_before_powers hs
      obtain ⟨site, hbeyond, hbody⟩ := body_overruns h₁ h₂ hstops hw
        (fun hbase => ih₁ n w hbase (fun _ hb => nomatch hb) hw hstops)
        fun hbase => ih₂ n v hn (fun b hb => Option.some.inj hb ▸ hbase) hv hs
      exact ⟨site, hbeyond, factor_of_body (signAt_of_operand h₁) hbody⟩
  | negative hm h₁ h₂ ih₁ ih₂ =>
      intro n v hn _ hv hs
      obtain ⟨z, hz⟩ := Tree.value_negative hv
      obtain ⟨w, hw⟩ := h₂.value_before _ rfl z hz
      have hstops := h₂.stops_before_powers hs
      obtain ⟨site, hbeyond, hbody⟩ := body_overruns h₁ h₂ hstops hw
        (fun hbase => ih₁ n w hbase (fun _ hb => nomatch hb) hw hstops)
        fun hbase => ih₂ n z hn (fun b hb => Option.some.inj hb ▸ hbase) hz hs
      exact ⟨site, hbeyond.pass (takesLevel_eq_false hm (by decide)),
        factor_of_body (signAt_of_minus hm) hbody⟩
  | powersEnd =>
      intro n v hn hbefore _ _
      exact absurd (hbefore _ rfl) (Nat.not_le_of_lt hn)
  | power ho h₁ ih₁ =>
      intro n v hn hbefore hv hs
      obtain ⟨-, w', -, hw', -⟩ := Tree.value_binary hv
      apply power_overruns ho
      rintro m rfl
      -- the base is within the levels, so the exponent is not
      have hbase := hbefore _ rfl
      rw [Tree.nesting, Nat.max_eq_right (by omega)] at hn
      exact ih₁ m w' (Nat.lt_of_succ_lt_succ hn) (fun _ hb => nomatch hb) hw' hs
  | number _ =>
      intro n v hn
      exact absurd hn (Nat.not_lt_zero n)
  | constant _ _ =>
      intro n v hn
      exact absurd hn (Nat.not_lt_zero n)
  | group hl h₁ hr ih₁ =>
      intro n v hn _ hv _
      apply group_overruns hl
      rintro m rfl
      exact ih₁ m v (Nat.lt_of_succ_lt_succ hn) (fun _ hb => nomatch hb) hv (stops_rightParen hr)
  | call hname hfunction hl h₁ hr ih₁ =>
      intro n v hn _ hv _
      obtain ⟨f, hf⟩ := Option.isSome_iff_exists.1 hfunction
      obtain ⟨w, hw⟩ := Tree.value_call hv
      apply call_overruns hname hf hl
      rintro m rfl
      exact ih₁ m w (Nat.lt_of_succ_lt_succ hn) (fun _ hb => nomatch hb) hw (stops_rightParen hr)

/-- A whole expression that nests deeper than the limit stops at the first token beyond it. -/
theorem evaluateLexemes_overruns {limit : Nat} {ts : List Token} {t : Tree} {v : V}
    (h : Derives d.lexicon (.chain .sum) ts t []) (hv : t.value d = .ok v)
    (hn : limit < t.nesting) :
    ∃ site, FirstBeyond limit ts t.depths site ∧
      evaluateLexemes d .complete limit (plain ts) =
        .error (.misplaced (plain site) (plain site) .depth) := by
  obtain ⟨site, hbeyond, hchain⟩ := h.overruns limit v hn (fun _ hb => nomatch hb) hv (stops_nil _)
  refine ⟨site, hbeyond, ?_⟩
  rw [evaluateLexemes, advance_complete]
  show expression d .complete _ _ (plain ts) >>= _ = _
  rw [expression_eq]
  exact congrArg (· >>= _) hchain

end Rules

end Calculator
