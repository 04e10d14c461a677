/-!
# Styles

A terminal takes an escape character, a bracket, parameters and a letter as a
change of style. `plain` leaves such sequences out of a text, for an output that
is no terminal; every other character stays.
-/

namespace Calculator.Text

/-- The parameters of a change of style. -/
def isStyleParameter (c : Char) : Bool := c = ';' || c = '?' || c.isDigit

/-- The text after a change of style, where `s` follows its escape character. None if
`s` does not complete one. -/
def afterStyle? : List Char → Option (List Char)
  | '[' :: s =>
    match s.dropWhile isStyleParameter with
    | c :: rest => if c.isAlpha then some rest else none
    | [] => none
  | _ => none

/-- A change of style takes characters. -/
theorem length_afterStyle?_lt {s rest : List Char} (h : afterStyle? s = some rest) :
    rest.length < s.length := by
  unfold afterStyle? at h
  split at h
  · rename_i s
    have hs := (List.dropWhile_sublist isStyleParameter (l := s)).length_le
    split at h
    · rename_i c more hd
      rw [hd] at hs
      split at h
      · simp only [Option.some.injEq] at h
        subst h
        simp only [List.length_cons] at hs ⊢
        omega
      · simp at h
    · simp at h
  · simp at h

/-- A text without changes of style. -/
def plain : List Char → List Char
  | [] => []
  | c :: s =>
    if c = '\x1b' then
      match _h : afterStyle? s with
      | some rest => plain rest
      | none => c :: plain s
    else c :: plain s
termination_by s => s.length
decreasing_by
  · exact Nat.lt_succ_of_lt (length_afterStyle?_lt _h)
  · simp
  · simp

/-- A text without escape characters has no changes of style. -/
theorem plain_eq_self {s : List Char} (h : '\x1b' ∉ s) : plain s = s := by
  induction s with
  | nil => simp [plain]
  | cons c s ih =>
    simp only [List.mem_cons, not_or] at h
    rw [plain, if_neg (fun he => h.1 (Eq.symm he)), ih h.2]

/-- A text without changes of style, as it is printed. -/
def plainText (s : String) : String := String.ofList (plain s.toList)

end Calculator.Text
