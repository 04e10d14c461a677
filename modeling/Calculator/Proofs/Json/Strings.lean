import Calculator.Json.Reader
import Calculator.Json.Writer
import Calculator.Proofs.Text.Plain

/-!
# JSON strings

A string that has been written is read back: every character comes back from its escape
(`takePoint_charEscape`), outside the basic plane from a pair of code units, and so does the whole
text up to its closing quote (`takeString_flatMap_charEscape`). What is written is printable ASCII,
whatever the text (`isPlain_charEscape`), so that no line break and no other control character
stands in it.
-/

set_option autoImplicit false

namespace Calculator

/-! ## Code units -/

namespace Text

theorem hexValue?_hexDigit : ∀ n < 16, hexValue? (hexDigit n) = some n := by decide

theorem hexPadded_four (n : Nat) :
    hexPadded 4 n = [hexDigit (n / 16 / 16 / 16 % 16), hexDigit (n / 16 / 16 % 16),
      hexDigit (n / 16 % 16), hexDigit (n % 16)] := rfl

end Text

namespace Json

open Text (IsPlain)

/-- Four digits are read as the code unit that they were written for. -/
theorem takeUnit?_hexPadded {n : Nat} (hn : n < 0x10000) (rest : List Char) :
    takeUnit? (Text.hexPadded 4 n ++ rest) = some (n, rest) := by
  have hdigit (m : Nat) : Text.hexValue? (Text.hexDigit (m % 16)) = some (m % 16) :=
    Text.hexValue?_hexDigit _ (Nat.mod_lt _ (by decide))
  have hvalue : Text.valueOfDigits 16
      [n / 16 / 16 / 16 % 16, n / 16 / 16 % 16, n / 16 % 16, n % 16] = n := by
    simp only [Text.valueOfDigits, List.foldl_cons, List.foldl_nil]
    omega
  simp [Text.hexPadded_four, takeUnit?, hdigit, hvalue]

/-- A character is no half of a pair. -/
theorem isHighUnit_toNat (c : Char) : isHighUnit c.toNat = false := by
  have hvalid := c.valid
  have hval : c.val.toNat = c.toNat := rfl
  simp only [UInt32.isValidChar, Nat.isValidChar, hval] at hvalid
  simp only [isHighUnit, Bool.and_eq_false_iff, decide_eq_false_iff_not]
  omega

theorem isLowUnit_toNat (c : Char) : isLowUnit c.toNat = false := by
  have hvalid := c.valid
  have hval : c.val.toNat = c.toNat := rfl
  simp only [UInt32.isValidChar, Nat.isValidChar, hval] at hvalid
  simp only [isLowUnit, Bool.and_eq_false_iff, decide_eq_false_iff_not]
  omega

theorem ofCode_toNat (c : Char) : Text.Point.ofCode c.toNat = .char c := by
  have hvalid := c.valid
  have hval : c.val.toNat = c.toNat := rfl
  simp only [UInt32.isValidChar, Nat.isValidChar, hval] at hvalid
  have hhalf : Text.Point.isHalf c.toNat = false := by
    simp only [Text.Point.isHalf, Bool.and_eq_false_iff, decide_eq_false_iff_not]
    omega
  rw [Text.Point.ofCode, hhalf]
  exact congrArg Text.Point.char (Char.ofNat_toNat c)

theorem takeUnicode?_of_small {c : Char} (h : c.toNat < 0x10000) (rest : List Char) :
    takeUnicode? (Text.hexPadded 4 c.toNat ++ rest) = some (.char c, rest) := by
  rw [takeUnicode?, takeUnit?_hexPadded h]
  simp [isHighUnit_toNat, ofCode_toNat]

/-- The two units of a pair. -/
theorem pairPoint_units {c : Char} {n : Nat} (h : c.toNat = 0x10000 + n) :
    pairPoint (0xD800 + n / 0x400) (0xDC00 + n % 0x400) = .char c := by
  have hsum : 0x10000 + (0xD800 + n / 0x400 - 0xD800) * 0x400 + (0xDC00 + n % 0x400 - 0xDC00) =
      c.toNat := by omega
  rw [pairPoint, hsum]
  exact congrArg Text.Point.char (Char.ofNat_toNat c)

/-- The escapes of both halves of a pair are read as its character. -/
theorem takeUnicode?_pair {high low : Nat} (hhigh : isHighUnit high = true)
    (hlow : isLowUnit low = true) (rest : List Char) :
    takeUnicode? (Text.hexPadded 4 high ++ (unitEscape low ++ rest)) =
      some (pairPoint high low, rest) := by
  have hunits : high < 0x10000 ∧ low < 0x10000 := by
    simp only [isHighUnit, isLowUnit, Bool.and_eq_true, decide_eq_true_eq] at hhigh hlow
    omega
  rw [takeUnicode?, takeUnit?_hexPadded hunits.1]
  simp only [unitEscape, List.cons_append, Option.bind_eq_bind, Option.bind_some, hhigh]
  rw [takeUnit?_hexPadded hunits.2]
  simp only [hlow, if_true]

/-- A character outside the basic plane is read back from its pair. -/
theorem takeUnicode?_of_large {c : Char} {n : Nat} (h : c.toNat = 0x10000 + n)
    (rest : List Char) :
    takeUnicode? (Text.hexPadded 4 (0xD800 + n / 0x400) ++
      ('\\' :: 'u' :: (Text.hexPadded 4 (0xDC00 + n % 0x400) ++ rest))) =
      some (.char c, rest) := by
  have hn : n < 0x100000 := by
    have hvalid := c.valid
    have hval : c.val.toNat = c.toNat := rfl
    simp only [UInt32.isValidChar, Nat.isValidChar, hval] at hvalid
    omega
  have hhigh : isHighUnit (0xD800 + n / 0x400) = true := by
    simp only [isHighUnit, Bool.and_eq_true, decide_eq_true_eq]
    omega
  have hlow : isLowUnit (0xDC00 + n % 0x400) = true := by
    simp only [isLowUnit, Bool.and_eq_true, decide_eq_true_eq]
    omega
  rw [← pairPoint_units h]
  exact takeUnicode?_pair hhigh hlow rest

/-! ## Strings -/

/-- The characters with an escape of one letter. -/
def shortlyEscaped : List Char := ['"', '\\', '\n', '\r', '\t', '\x08', '\x0c']

/-- What stands for a character: an escape of one letter, the character itself, or one or two code
units. -/
theorem charEscape_cases (c : Char) :
    (∃ e, e ≠ 'u' ∧ simpleEscape? e = some c ∧ ' ' ≤ e ∧ e ≤ '~' ∧ charEscape c = ['\\', e]) ∨
    (c ≠ '"' ∧ c ≠ '\\' ∧ ' ' ≤ c ∧ c ≤ '~' ∧ charEscape c = [c]) ∨
    (c.toNat < 0x10000 ∧ charEscape c = unitEscape c.toNat) ∨
    ∃ n, c.toNat = 0x10000 + n ∧
      charEscape c = unitEscape (0xD800 + n / 0x400) ++ unitEscape (0xDC00 + n % 0x400) := by
  by_cases hshort : c ∈ shortlyEscaped
  · refine Or.inl ?_
    simp only [shortlyEscaped, List.mem_cons, List.not_mem_nil, or_false] at hshort
    rcases hshort with rfl | rfl | rfl | rfl | rfl | rfl | rfl
    · exact ⟨'"', by decide, rfl, by decide, by decide, rfl⟩
    · exact ⟨'\\', by decide, rfl, by decide, by decide, rfl⟩
    · exact ⟨'n', by decide, rfl, by decide, by decide, rfl⟩
    · exact ⟨'r', by decide, rfl, by decide, by decide, rfl⟩
    · exact ⟨'t', by decide, rfl, by decide, by decide, rfl⟩
    · exact ⟨'b', by decide, rfl, by decide, by decide, rfl⟩
    · exact ⟨'f', by decide, rfl, by decide, by decide, rfl⟩
  · refine Or.inr ?_
    simp only [shortlyEscaped, List.mem_cons, List.not_mem_nil, or_false, not_or] at hshort
    obtain ⟨h1, h2, h3, h4, h5, h6, h7⟩ := hshort
    simp only [charEscape, if_neg h1, if_neg h2, if_neg h3, if_neg h4, if_neg h5, if_neg h6,
      if_neg h7]
    by_cases hplain : ' ' ≤ c ∧ c ≤ '~'
    · exact Or.inl ⟨h1, h2, hplain.1, hplain.2, if_pos hplain⟩
    · rw [if_neg hplain]
      by_cases hsmall : c.toNat < 0x10000
      · exact Or.inr (Or.inl ⟨hsmall, if_pos hsmall⟩)
      · refine Or.inr (Or.inr ⟨c.toNat - 0x10000, ?_, if_neg hsmall⟩)
        exact (Nat.add_sub_cancel' (Nat.le_of_not_lt hsmall)).symm

theorem takePoint_unit (s : List Char) :
    takeString.takePoint '\\' ('u' :: s) = required (takeUnicode? s) := rfl

/-- The escape of a character starts with another character than the quote, and is read as the
character. -/
theorem takePoint_charEscape (c : Char) :
    ∃ first escape, charEscape c = first :: escape ∧ first ≠ '"' ∧ ¬ first < ' ' ∧
      ∀ rest, takeString.takePoint first (escape ++ rest) = .ok (.char c, rest) := by
  rcases charEscape_cases c with ⟨e, hu, hread, -, -, h⟩ | ⟨hquote, hslash, hlow, -, h⟩ |
    ⟨hsmall, h⟩ | ⟨n, hlarge, h⟩
  · refine ⟨_, _, h, by decide, by decide, fun rest => ?_⟩
    have hne : ∀ s, e :: rest = 'u' :: s → False := fun s hs => hu (List.cons.inj hs).1
    simp only [takeString.takePoint, List.singleton_append, ne_eq, not_true_eq_false, if_false]
    rw [hread]
    rfl
  · refine ⟨_, _, h, hquote, Char.not_lt.2 hlow, fun rest => ?_⟩
    exact if_pos hslash
  · refine ⟨'\\', 'u' :: Text.hexPadded 4 c.toNat, h, by decide, by decide, fun rest => ?_⟩
    rw [List.cons_append, takePoint_unit, takeUnicode?_of_small hsmall]
    rfl
  · refine ⟨'\\', 'u' :: (Text.hexPadded 4 (0xD800 + n / 0x400) ++
      '\\' :: 'u' :: Text.hexPadded 4 (0xDC00 + n % 0x400)), h, by decide, by decide,
      fun rest => ?_⟩
    rw [List.cons_append, takePoint_unit, List.append_assoc, List.cons_append, List.cons_append,
      takeUnicode?_of_large hlarge]
    rfl

theorem charEscape_ne_nil (c : Char) : charEscape c ≠ [] := by
  obtain ⟨first, escape, hescape, -⟩ := takePoint_charEscape c
  rw [hescape]
  exact List.cons_ne_nil _ _

/-- What is written item by item is as long as the items at least, if nothing is written as
nothing. -/
theorem length_le_flatMap {α β : Type} {f : α → List β} (h : ∀ a, f a ≠ []) (items : List α) :
    items.length ≤ (items.flatMap f).length := by
  induction items with
  | nil => exact Nat.le_refl _
  | cons a rest ih =>
      have ha := List.length_pos_iff.2 (h a)
      rw [List.flatMap_cons, List.length_append, List.length_cons]
      omega

/-- A character is read from its escape, then the string goes on. -/
theorem takeString_charEscape (c : Char) (fuel : Nat) (s : List Char) :
    takeString (fuel + 1) (charEscape c ++ s) =
      (fun r => (.char c :: r.1, r.2)) <$> takeString fuel s := by
  obtain ⟨first, escape, hescape, hquote, hcontrol, hpoint⟩ := takePoint_charEscape c
  rw [hescape, List.cons_append, takeString, if_neg hquote, if_neg hcontrol, hpoint]
  rfl

/-- **A text is read back from its escapes**, up to the closing quote. -/
theorem takeString_flatMap_charEscape (s rest : List Char) :
    ∀ fuel, s.length < fuel →
      takeString fuel (s.flatMap charEscape ++ '"' :: rest) = .ok (Text.points s, rest) := by
  induction s with
  | nil =>
      rintro (_ | fuel) hfuel
      · exact absurd hfuel (Nat.not_lt_zero _)
      · simp [takeString, Text.points]
  | cons c s ih =>
      rintro (_ | fuel) hfuel
      · exact absurd hfuel (Nat.not_lt_zero _)
      · rw [List.flatMap_cons, List.append_assoc, takeString_charEscape,
          ih fuel (Nat.lt_of_succ_lt_succ hfuel)]
        rfl

/-! ## Printable text -/

theorem isPlain_hexDigit : ∀ n < 16, IsPlain (Text.hexDigit n) := by decide

theorem isPlain_unitEscape (n : Nat) : ∀ c ∈ unitEscape n, IsPlain c := by
  have hdigit (m : Nat) : IsPlain (Text.hexDigit (m % 16)) :=
    isPlain_hexDigit _ (Nat.mod_lt _ (by decide))
  simp only [unitEscape, Text.hexPadded_four, List.mem_cons, List.not_mem_nil, or_false]
  rintro c (rfl | rfl | rfl | rfl | rfl | rfl)
  · decide
  · decide
  · exact hdigit _
  · exact hdigit _
  · exact hdigit _
  · exact hdigit _

theorem isPlain_charEscape (c : Char) : ∀ c' ∈ charEscape c, IsPlain c' := by
  intro c' hc'
  rcases charEscape_cases c with ⟨e, -, -, hlow, hhigh, h⟩ | ⟨-, -, hlow, hhigh, h⟩ | ⟨-, h⟩ |
    ⟨n, -, h⟩
  · rw [h] at hc'
    simp only [List.mem_cons, List.not_mem_nil, or_false] at hc'
    rcases hc' with rfl | rfl
    · decide
    · exact ⟨hlow, hhigh⟩
  · rw [h] at hc'
    obtain rfl := List.mem_singleton.1 hc'
    exact ⟨hlow, hhigh⟩
  · exact isPlain_unitEscape _ c' (h ▸ hc')
  · rcases List.mem_append.1 (h ▸ hc') with hc' | hc'
    · exact isPlain_unitEscape _ c' hc'
    · exact isPlain_unitEscape _ c' hc'

/-- **A string is written in printable ASCII.** -/
theorem isPlain_stringChars (s : String) : ∀ c ∈ stringChars s, IsPlain c := by
  intro c hc
  simp only [stringChars, List.mem_append, List.mem_cons, List.mem_flatMap, List.not_mem_nil,
    or_false] at hc
  rcases hc with (rfl | ⟨c', -, hc⟩) | rfl
  · decide
  · exact isPlain_charEscape c' c hc
  · decide

end Json

end Calculator
