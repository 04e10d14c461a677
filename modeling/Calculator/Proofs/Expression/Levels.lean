import Calculator.Proofs.Expression.Comparison

/-!
# More levels

A sequence of lexemes comes to the same under a higher limit, unless the lower one has been exceeded
(`evaluateLexemes_extends`): two runs over one domain differ in nothing but the levels they have.
-/

set_option autoImplicit false

namespace Calculator

variable {V α : Type}

/-- The second outcome is the first one, unless the first is that no level was left. -/
inductive Extends : Except Fault α → Except Fault α → Prop where
  | tooDeep {site ahead y} : Extends (.error (.misplaced site ahead .depth)) y
  | same {x} : Extends x x

/-- A whole sequence of lexemes comes to the same under a higher limit, unless the lower one has
been exceeded. -/
theorem evaluateLexemes_extends (d : Domain V) (ending : Ending) {n m : Nat} (h : n ≤ m)
    (lexemes : List Lexeme) :
    Extends (evaluateLexemes d ending n lexemes) (evaluateLexemes d ending m lexemes) := by
  have hupholds : Upholds (fun fault => ∃ site ahead, fault = .misplaced site ahead .depth)
      (evaluateLexemes d ending n lexemes) (evaluateLexemes d ending m lexemes) :=
    evaluateLexemes_upholds (.refl d) ending h (fun _ s => ⟨s, s, rfl⟩) lexemes
  generalize evaluateLexemes d ending n lexemes = run at hupholds ⊢
  generalize evaluateLexemes d ending m lexemes = run' at hupholds ⊢
  cases hupholds with
  | spared hdepth =>
      obtain ⟨site, ahead, rfl⟩ := hdepth
      exact .tooDeep
  | same => exact .same

end Calculator
