import Calculator.Proofs.Expression.Contract

/-!
# Places of faults

Where the rules stand among the lexemes that they were given. All that they leave unread is an end
of those lexemes, and the next unread lexeme, or the end of the input, has always been scanned. A
fault that is located names two such ends: from the lexeme at fault on, and from the next unread
one on (`evaluateLexemes_within`).
-/

set_option autoImplicit false

namespace Calculator

variable {V : Type}

/-- What a fault says of its place is about an end of the given lexemes, as far as they have been
scanned. -/
def Fault.Within (lexemes : List Lexeme) (ending : Ending) : Fault → Prop
  | .lexical => ending = .broken
  | .misplaced site ahead _ => site <:+ lexemes ∧ ahead <:+ site ∧ Present ending ahead
  | .step site ahead _ => site ≠ [] ∧ site <:+ lexemes ∧ ahead <:+ site ∧ Present ending ahead
  | .escaped _ => True

/-- The contract that unread lexemes are an end of the given ones and have been scanned. -/
def places (lexemes : List Lexeme) (ending : Ending) : Contract V Unit where
  inside := id
  Due _ _ s := s <:+ lexemes ∧ Present ending s
  Owed _ _ s := s <:+ lexemes ∧ Present ending s
  Done _ _ s := s <:+ lexemes ∧ Present ending s
  Value _ := True
  Bad := Fault.Within lexemes ending

theorem broken_of_not_present {ending : Ending} {s : List Lexeme} (h : ¬ Present ending s) :
    ending = .broken := by
  cases ending with
  | broken => rfl
  | complete => exact absurd (fun hc => nomatch hc) h

theorem suffix_of_cons_suffix {l : Lexeme} {rest lexemes : List Lexeme}
    (h : l :: rest <:+ lexemes) : rest <:+ lexemes :=
  (List.suffix_cons l rest).trans h

section Kept

variable {lexemes : List Lexeme} {ending : Ending}

theorem places_advance {l : Lexeme} {rest : List Lexeme} (h : l :: rest <:+ lexemes) :
    Meets (fun s => s <:+ lexemes ∧ Present ending s) (Fault.Within lexemes ending)
      (advance ending rest) :=
  meets_advance (fun hp => ⟨suffix_of_cons_suffix h, hp⟩) broken_of_not_present

theorem within_of_mishap {l : Lexeme} {rest ahead : List Lexeme} (m : Mishap)
    (hsite : l :: rest <:+ lexemes) (hahead : ahead <:+ rest) (hp : Present ending ahead) :
    Fault.Within lexemes ending (.ofMishap (l :: rest) ahead m) := by
  have hsuffix : ahead <:+ l :: rest := hahead.trans (List.suffix_cons l rest)
  cases m with
  | failure cause => exact ⟨List.cons_ne_nil l rest, hsite, hsuffix, hp⟩
  | complexResult => exact ⟨List.cons_ne_nil l rest, hsite, hsuffix, hp⟩
  | overflow => exact ⟨List.cons_ne_nil l rest, hsite, hsuffix, hp⟩
  | escaped cause => trivial

theorem places_applied {l : Lexeme} {rest ahead : List Lexeme} (x : Except Mishap V)
    (hsite : l :: rest <:+ lexemes) (hahead : ahead <:+ rest) (hp : Present ending ahead) :
    Meets (fun _ => True) (Fault.Within lexemes ending) (applied (l :: rest) ahead x) := by
  cases x with
  | ok v => trivial
  | error m => exact within_of_mishap m hsite hahead hp

/-- Every step of the rules stays among the lexemes given. -/
theorem places_kept (d : Domain V) (lexemes : List Lexeme) (ending : Ending) :
    (places lexemes ending : Contract V Unit).Kept d ending where
  minus h _ := places_advance h.1
  unsigned h _ := h
  number h _ _ := ⟨trivial, places_advance h.1⟩
  literal _ _ _ := trivial
  name _ _ hp := broken_of_not_present hp
  constant h _ hp _ _ := ⟨trivial, suffix_of_cons_suffix h.1, hp⟩
  noConstant h _ hp _ _ := by
    split
    · exact ⟨suffix_of_cons_suffix h.1, List.suffix_refl _, hp⟩
    · exact ⟨h.1, List.suffix_cons _ _, hp⟩
  noFunction {n c l rest} h _ hopen _ := by
    have hp : Present ending rest := by
      rintro - rfl
      cases hopen
    split
    · exact ⟨suffix_of_cons_suffix h.1, List.suffix_refl _, hp⟩
    · exact ⟨h.1, List.suffix_cons _ _, hp⟩
  noOperand h _ := ⟨h.1, List.suffix_refl _, h.2⟩
  opened h := by
    obtain ⟨-, h | ⟨name, f, -, -, h⟩⟩ := h
    · exact places_advance h.1
    · exact places_advance (suffix_of_cons_suffix h.1)
  groupTooDeep {c l rest} h := by
    have hp : Present ending (l :: rest) := fun _ => List.cons_ne_nil l rest
    obtain ⟨-, h | ⟨name, f, -, -, h⟩⟩ := h
    · exact ⟨h.1, List.suffix_refl _, hp⟩
    · exact ⟨suffix_of_cons_suffix h.1, List.suffix_refl _, hp⟩
  closed h _ := places_advance h.1
  unclosed h _ _ := ⟨h.1, List.suffix_refl _, h.2⟩
  operator h _ := places_advance h.1
  power h _ := places_advance h.1
  powerTooDeep h _ := ⟨h.1, List.suffix_refl _, h.2⟩
  powerEnd h := h
  negate {v} _ := by
    cases d.negate v with
    | ok w => trivial
    | error cause => trivial
  operate h hahead hsuffix _ _ _ _ := places_applied _ h.1 hsuffix hahead.2
  apply h _ _ hahead hsuffix _ := places_applied _ h.1 hsuffix hahead.2

end Kept

/-- A value is found only if the input has been scanned to its end, and a fault is about places
that have been scanned. -/
theorem evaluateLexemes_within (d : Domain V) (ending : Ending) (limit : Nat)
    (lexemes : List Lexeme) :
    Meets (fun _ => ending = .complete) (Fault.Within lexemes ending)
      (evaluateLexemes d ending limit lexemes) := by
  have hstart : Meets (fun s => s <:+ lexemes ∧ Present ending s) (Fault.Within lexemes ending)
      (advance ending lexemes) :=
    meets_advance (fun hp => ⟨List.suffix_refl lexemes, hp⟩) broken_of_not_present
  have hmeets := (places_kept d lexemes ending).evaluateLexemes_meets (n := limit) (c := ())
    hstart (fun l rest h _ => ⟨h.1, List.suffix_refl _, h.2⟩)
  apply hmeets.mono
  rintro v ⟨-, -, hp⟩
  cases ending with
  | complete => rfl
  | broken => exact absurd rfl (hp rfl)

end Calculator
