import Calculator.Proofs.Text.Plain
import Calculator.Text.Style

/-!
# Texts without changes of style

A change of style is an escape character, a bracket, parameters and a letter (`IsStyle`). A text is
left unstyled by leaving out each change of style that starts where it has been read to, and by
keeping all other characters (`Unstyled`). That is what is printed of it (`unstyled_plain`).
-/

set_option autoImplicit false

namespace Calculator.Text

/-- A change of style. -/
inductive IsStyle : List Char → Prop where
  | intro {parameters : List Char} {letter : Char} :
      (∀ c ∈ parameters, c = ';' ∨ c = '?' ∨ c.isDigit) → letter.isAlpha →
      IsStyle ('\x1b' :: '[' :: (parameters ++ [letter]))

/-- A text, and what is left of it without its changes of style. -/
inductive Unstyled : List Char → List Char → Prop where
  | nil : Unstyled [] []
  | style {change s left} : IsStyle change → Unstyled s left → Unstyled (change ++ s) left
  | char {c s left} : (∀ change, change <+: c :: s → ¬ IsStyle change) → Unstyled s left →
      Unstyled (c :: s) (c :: left)

theorem isStyleParameter_iff {c : Char} :
    isStyleParameter c = true ↔ c = ';' ∨ c = '?' ∨ c.isDigit := by
  simp [isStyleParameter, or_assoc]

theorem not_isStyleParameter_of_isAlpha {c : Char} (h : c.isAlpha) :
    isStyleParameter c = false := by
  rw [Bool.eq_false_iff]
  intro hparameter
  rcases isStyleParameter_iff.1 hparameter with rfl | rfl | hdigit
  · cases h
  · cases h
  · exact not_isAlpha_of_isDigit hdigit h

/-- **What is behind a change of style is found exactly if there is one.** -/
theorem afterStyle?_eq_some_iff {s rest : List Char} :
    afterStyle? s = some rest ↔ ∃ change, IsStyle change ∧ '\x1b' :: s = change ++ rest := by
  constructor
  · intro h
    unfold afterStyle? at h
    split at h
    · rename_i s
      split at h
      · rename_i letter rest' hbehind
        split at h
        · rename_i hletter
          cases h
          have hparameters : ∀ c ∈ s.takeWhile isStyleParameter, c = ';' ∨ c = '?' ∨ c.isDigit :=
            fun c hc => isStyleParameter_iff.1 (of_mem_takeWhile hc)
          refine ⟨_, .intro hparameters hletter, ?_⟩
          have hsplit := List.takeWhile_append_dropWhile (p := isStyleParameter) (l := s)
          rw [hbehind] at hsplit
          simp [hsplit]
        · cases h
      · cases h
    · cases h
  · rintro ⟨change, @⟨parameters, letter, hparameters, hletter⟩, hs⟩
    obtain rfl : s = '[' :: (parameters ++ letter :: rest) := by simpa using hs
    have hskip : (parameters ++ letter :: rest).dropWhile isStyleParameter = letter :: rest := by
      rw [List.dropWhile_append_of_pos fun c hc => isStyleParameter_iff.2 (hparameters c hc)]
      exact List.dropWhile_cons_of_neg
        (Bool.eq_false_iff.1 (not_isStyleParameter_of_isAlpha hletter))
    rw [afterStyle?, hskip]
    exact if_pos hletter

/-- Every change of style starts with an escape character. -/
theorem not_isStyle_of_ne {c : Char} {s change : List Char} (h : c ≠ '\x1b')
    (hfront : change <+: c :: s) : ¬ IsStyle change := by
  rintro ⟨-, -⟩
  exact h (List.cons_prefix_cons.1 hfront).1.symm

/-- **A text is printed without its changes of style.** -/
theorem unstyled_plain (s : List Char) : Unstyled s (plain s) := by
  induction s using plain.induct with
  | case1 =>
      rw [plain]
      exact .nil
  | case2 s rest hafter ih =>
      obtain ⟨change, hchange, hs⟩ := afterStyle?_eq_some_iff.1 hafter
      rw [plain, if_pos rfl]
      split
      · rename_i rest' hafter'
        cases hafter.symm.trans hafter'
        rw [hs]
        exact .style hchange ih
      · rename_i hnone
        cases hafter.symm.trans hnone
  | case3 s hafter ih =>
      rw [plain, if_pos rfl]
      split
      · rename_i rest hsome
        cases hafter.symm.trans hsome
      · refine .char ?_ ih
        rintro change ⟨rest, hrest⟩ hchange
        cases hafter.symm.trans (afterStyle?_eq_some_iff.2 ⟨change, hchange, hrest.symm⟩)
  | case4 c s hc ih =>
      rw [plain, if_neg hc]
      exact .char (fun _ hfront => not_isStyle_of_ne hc hfront) ih

end Calculator.Text
