import Calculator.Proofs.Evaluation.OnePass
import Calculator.Proofs.Number.Mixed

/-!
# Performed steps

The steps of operators and functions that are performed on the way to the value of a tree, in order
(`Tree.steps`). How a tree comes to its value by them is told once, rule by rule (`Tree.Runs`,
`Tree.runs`), and whatever is to hold of all steps follows these rules. A step is performed once its
operands have values, and its result is looked at before the evaluation goes on. So the first step
that fails is the last one, and it decides what comes of the tree (`Tree.Runs.eq_error_of_step`) and
of the source (`evaluate_of_step`). What all steps keep holds of all values (`Tree.Runs.keeps`).
-/

set_option autoImplicit false

namespace Calculator

/-! ## Steps -/

/-- A step of an evaluation: the token of its operator or function, its operands, and what the
operation or function gives. -/
structure Step where
  token : Token
  operands : List Datum
  result : Except Mishap Datum

/-- What comes of a step when its result has been looked at. -/
def Step.outcome (σ : Step) : Except Mishap Datum := σ.result >>= Datum.settle σ.operands

/-- The value that a step gives, or why it halts. -/
def Step.value (σ : Step) : Except Halt Datum := σ.outcome.mapError (.ofMishap σ.token)

/-- What a function gives before it is looked at. -/
def Function.result (f : Function) (argument : Datum) : Except Mishap Datum :=
  match f argument with
  | .error cause => .error (.ofFailure cause)
  | .ok (.complex _ _) => .error .complexResult
  | .ok (.value d) => .ok d

theorem Function.step_eq (f : Function) (argument : Datum) :
    f.step argument = f.result argument >>= Datum.settle [argument] := by
  unfold step result
  cases f argument with
  | error cause => rfl
  | ok o => cases o <;> rfl

/-- A step of an operator, or of a function of the vocabulary. -/
inductive Step.IsOf (v : Vocabulary) : Step → Prop where
  | operator {token op a b} : IsOf v ⟨token, [a, b], Datum.operate op a b⟩
  | function {token f a} : v.functions.lookup token.text = some f →
      IsOf v ⟨token, [a], f.result a⟩

/-- The steps that are performed on the way to the value of a tree, in order. -/
def Tree.steps (v : Vocabulary) : Tree → List Step
  | number _ | constant _ => []
  | group inner => inner.steps v
  | call name argument =>
    match v.functions.lookup name.text with
    | none => []
    | some f =>
      match argument.value v.domain with
      | .error _ => argument.steps v
      | .ok a => argument.steps v ++ [⟨name, [a], f.result a⟩]
  | negative body => body.steps v
  | binary op operator left right =>
    match left.value v.domain with
    | .error _ => left.steps v
    | .ok a =>
      match right.value v.domain with
      | .error _ => left.steps v ++ right.steps v
      | .ok b => left.steps v ++ right.steps v ++ [⟨operator, [a, b], Datum.operate op a b⟩]

namespace Tree

variable {v : Vocabulary} {σ : Step}

/-! ## How values come about -/

/-- How a tree comes to a value, or to none, and the steps performed on the way. -/
inductive Runs (v : Vocabulary) : Tree → Except Halt Datum → List Step → Prop where
  | number {l} : Runs v (.number l) ((v.literal l.text).mapError .escaped) []
  | constant {name d} : v.value? name.text = some d → Runs v (.constant name) (.ok d) []
  | unknownConstant {name} : v.value? name.text = none →
      Runs v (.constant name) (.error (.unknown name)) []
  | group {inner r σs} : Runs v inner r σs → Runs v (.group inner) r σs
  | negative {body a σs} : Runs v body (.ok a) σs →
      Runs v (.negative body) ((Datum.negate a).mapError .escaped) σs
  | noBody {body halt σs} : Runs v body (.error halt) σs → Runs v (.negative body) (.error halt) σs
  | call {name argument f a σs} : v.functions.lookup name.text = some f →
      Runs v argument (.ok a) σs → Runs v (.call name argument)
        (Step.value ⟨name, [a], f.result a⟩) (σs ++ [⟨name, [a], f.result a⟩])
  | noArgument {name argument f halt σs} : v.functions.lookup name.text = some f →
      Runs v argument (.error halt) σs → Runs v (.call name argument) (.error halt) σs
  | unknownFunction {name argument} : v.functions.lookup name.text = none →
      Runs v (.call name argument) (.error (.unknown name)) []
  | binary {op operator left right a b σs τs} : Runs v left (.ok a) σs → Runs v right (.ok b) τs →
      Runs v (.binary op operator left right)
        (Step.value ⟨operator, [a, b], Datum.operate op a b⟩)
        (σs ++ τs ++ [⟨operator, [a, b], Datum.operate op a b⟩])
  | noLeft {op operator left right halt σs} : Runs v left (.error halt) σs →
      Runs v (.binary op operator left right) (.error halt) σs
  | noRight {op operator left right a halt σs τs} : Runs v left (.ok a) σs →
      Runs v right (.error halt) τs →
      Runs v (.binary op operator left right) (.error halt) (σs ++ τs)

/-- **A tree comes to its value by its steps.** -/
theorem runs (v : Vocabulary) (t : Tree) : Runs v t (t.value v.domain) (t.steps v) := by
  induction t with
  | number l => exact .number
  | constant name =>
      rw [value]
      split
      · rename_i d hd
        exact .constant hd
      · rename_i hnone
        exact .unknownConstant hnone
  | group inner ih => exact .group ih
  | negative body ih =>
      rw [value, steps]
      cases hbody : body.value v.domain with
      | error halt => exact .noBody (hbody ▸ ih)
      | ok a => exact .negative (hbody ▸ ih)
  | call name argument ih =>
      have hfunction : v.domain.function? name.text =
          (v.functions.lookup name.text).map Function.step := rfl
      rw [value, steps, hfunction]
      cases hf : v.functions.lookup name.text with
      | none => exact .unknownFunction hf
      | some f =>
          cases ha : argument.value v.domain with
          | error halt =>
              rw [ha] at ih
              exact .noArgument hf ih
          | ok a =>
              rw [ha] at ih
              have hstep : f.step a = Step.outcome ⟨name, [a], f.result a⟩ := f.step_eq a
              show Runs v _ ((f.step a).mapError _) _
              rw [hstep]
              exact .call hf ih
  | binary op operator left right ihl ihr =>
      rw [value, steps]
      cases ha : left.value v.domain with
      | error halt =>
          rw [ha] at ihl
          exact .noLeft ihl
      | ok a =>
          rw [ha] at ihl
          cases hb : right.value v.domain with
          | error halt =>
              rw [hb] at ihr
              exact .noRight ihl ihr
          | ok b =>
              rw [hb] at ihr
              exact .binary ihl ihr

theorem value_binary_of_operands {op : Operation} {operator : Token} {left right : Tree}
    {a b : Datum} (ha : left.value v.domain = .ok a) (hb : right.value v.domain = .ok b) :
    (binary op operator left right).value v.domain =
      Step.value ⟨operator, [a, b], Datum.operate op a b⟩ := by
  rw [value, ha, hb]
  rfl

theorem steps_call {name : Token} {argument : Tree} {f : Function} {a : Datum}
    (hf : v.functions.lookup name.text = some f) (ha : argument.value v.domain = .ok a) :
    (call name argument).steps v = argument.steps v ++ [⟨name, [a], f.result a⟩] := by
  rw [steps, hf, ha]

namespace Runs

variable {t : Tree} {r : Except Halt Datum} {σs : List Step}

/-- The steps performed are steps of the vocabulary. -/
theorem isOf (h : Runs v t r σs) : ∀ σ ∈ σs, σ.IsOf v := by
  induction h with
  | number | constant _ | unknownConstant _ | unknownFunction _ => exact fun σ hσ => nomatch hσ
  | group _ ih | negative _ ih | noBody _ ih | noArgument _ _ ih | noLeft _ ih => exact ih
  | call hf _ ih =>
      exact List.forall_mem_append.2 ⟨ih, List.forall_mem_singleton.2 (.function hf)⟩
  | binary _ _ ihl ihr =>
      exact List.forall_mem_append.2 ⟨List.forall_mem_append.2 ⟨ihl, ihr⟩,
        List.forall_mem_singleton.2 .operator⟩
  | noRight _ _ ihl ihr => exact List.forall_mem_append.2 ⟨ihl, ihr⟩

/-- **A step performed that fails decides what comes of the tree.** -/
theorem eq_error_of_step (h : Runs v t r σs) : ∀ σ ∈ σs, ∀ m, σ.outcome = .error m →
    r = .error (.ofMishap σ.token m) := by
  -- what has come to a value has no step that fails
  induction h with
  | number | constant _ | unknownConstant _ | unknownFunction _ => exact fun σ hσ => nomatch hσ
  | group _ ih | noBody _ ih | noArgument _ _ ih | noLeft _ ih => exact ih
  | negative _ ih => exact fun σ hσ m hm => nomatch ih σ hσ m hm
  | call _ _ ih =>
      refine List.forall_mem_append.2 ⟨fun σ hσ m hm => (nomatch ih σ hσ m hm),
        List.forall_mem_singleton.2 fun m hm => ?_⟩
      rw [Step.value, hm]
      rfl
  | binary _ _ ihl ihr =>
      refine List.forall_mem_append.2 ⟨List.forall_mem_append.2
        ⟨fun σ hσ m hm => (nomatch ihl σ hσ m hm), fun σ hσ m hm => (nomatch ihr σ hσ m hm)⟩,
        List.forall_mem_singleton.2 fun m hm => ?_⟩
      rw [Step.value, hm]
      rfl
  | noRight _ _ ihl ihr =>
      exact List.forall_mem_append.2 ⟨fun σ hσ m hm => (nomatch ihl σ hσ m hm), ihr⟩

/-- **What literals and constants are, and changes of sign and steps keep, all values are**: that of
the tree, and the operands of the steps performed. -/
theorem keeps {P : Datum → Prop} (h : Runs v t r σs)
    (hliteral : ∀ l ∈ t.literals, ∀ d, v.literal l.text = .ok d → P d)
    (hconstant : ∀ name d, v.value? name = some d → P d)
    (hnegate : ∀ a d, P a → Datum.negate a = .ok d → P d)
    (hstep : ∀ σ ∈ σs, (∀ a ∈ σ.operands, P a) → ∀ d, σ.outcome = .ok d → P d) :
    (∀ d, r = .ok d → P d) ∧ ∀ σ ∈ σs, ∀ a ∈ σ.operands, P a := by
  induction h with
  | @number l =>
      refine ⟨fun d hd => ?_, fun σ hσ => nomatch hσ⟩
      exact hliteral l List.mem_cons_self d (eq_ok_of_mapError hd)
  | @constant name d hname =>
      refine ⟨fun d' hd => ?_, fun σ hσ => nomatch hσ⟩
      obtain rfl := Except.ok.inj hd
      exact hconstant name.text d hname
  | unknownConstant _ | unknownFunction _ =>
      exact ⟨fun d hd => (nomatch hd), fun σ hσ => nomatch hσ⟩
  | group _ ih | noBody _ ih | noArgument _ _ ih => exact ih hliteral hstep
  | @negative body a σs _ ih =>
      obtain ⟨hvalue, hoperands⟩ := ih hliteral hstep
      exact ⟨fun d hd => hnegate a d (hvalue a rfl) (eq_ok_of_mapError hd), hoperands⟩
  | @call name argument f a σs _ _ ih =>
      obtain ⟨hbefore, hlast⟩ := List.forall_mem_append.1 hstep
      obtain ⟨hvalue, hoperands⟩ := ih hliteral hbefore
      have ha : ∀ b ∈ [a], P b := List.forall_mem_singleton.2 (hvalue a rfl)
      refine ⟨fun d hd => ?_, List.forall_mem_append.2 ⟨hoperands, List.forall_mem_singleton.2 ha⟩⟩
      exact List.forall_mem_singleton.1 hlast ha d (eq_ok_of_mapError hd)
  | @binary op operator left right a b σs τs _ _ ihl ihr =>
      obtain ⟨hleft, hright⟩ := List.forall_mem_append.1 hliteral
      obtain ⟨hbefore, hlast⟩ := List.forall_mem_append.1 hstep
      obtain ⟨hσs, hτs⟩ := List.forall_mem_append.1 hbefore
      obtain ⟨ha, hleftOperands⟩ := ihl hleft hσs
      obtain ⟨hb, hrightOperands⟩ := ihr hright hτs
      have hboth : ∀ c ∈ [a, b], P c :=
        List.forall_mem_cons.2 ⟨ha a rfl, List.forall_mem_singleton.2 (hb b rfl)⟩
      refine ⟨fun d hd => ?_, List.forall_mem_append.2 ⟨List.forall_mem_append.2
        ⟨hleftOperands, hrightOperands⟩, List.forall_mem_singleton.2 hboth⟩⟩
      exact List.forall_mem_singleton.1 hlast hboth d (eq_ok_of_mapError hd)
  | noLeft _ ih => exact ih (List.forall_mem_append.1 hliteral).1 hstep
  | noRight _ _ ihl ihr =>
      obtain ⟨hleft, hright⟩ := List.forall_mem_append.1 hliteral
      obtain ⟨hσs, hτs⟩ := List.forall_mem_append.1 hstep
      obtain ⟨-, hleftOperands⟩ := ihl hleft hσs
      obtain ⟨-, hrightOperands⟩ := ihr hright hτs
      exact ⟨fun d hd => (nomatch hd), List.forall_mem_append.2 ⟨hleftOperands, hrightOperands⟩⟩

end Runs

end Tree

/-- The literals of the tree of a source are numbers among its lexemes. -/
theorem IsTreeOf.literals {V : Type} {d : Domain V} {limit : DepthLimit} {s : List Char} {t : Tree}
    (ht : IsTreeOf d limit s t) :
    ∀ l ∈ t.literals, l.toLexeme ∈ (Transcript.ofText s).lexemes ∧ l.kind = .number := by
  obtain ⟨ts, hts, hderives, -⟩ := ht
  rw [Transcript.lexemes_eq_plain, hts.transcript.1]
  refine hderives.forall_literals (fun l hl hkind => ⟨List.mem_map_of_mem hl, hkind⟩) ?_
  exact fun b hb => nomatch hb

/-- **A performed step that fails decides the outcome of the source.** -/
theorem evaluate_of_step {v : Vocabulary} {limit : DepthLimit} {s : List Char} {t : Tree} {σ : Step}
    {m : Mishap} (ht : IsTreeOf v.domain limit s t) (h : σ ∈ t.steps v)
    (hm : σ.outcome = .error m) :
    Realises (evaluate v.domain limit s) (.error (.ofMishap σ.token m)) := by
  rw [← (t.runs v).eq_error_of_step σ h m hm]
  exact ht.realises

end Calculator
