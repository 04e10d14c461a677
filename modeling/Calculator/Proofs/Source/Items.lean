import Calculator.Proofs.Text.Plain
import Calculator.Source.Reading

/-!
# What items are made of

The parts of numbers, and the characters of lexemes and faults. A number is digits, then a point
with digits or nothing (`IsFraction`), then an exponent with at least one digit or nothing
(`IsExponent`). A lexeme has characters, and none of them ends a line or is a carriage return
(`lexeme_characters`); the character that causes a fault ends no line (`offender_ne_newline`).
`IsLexeme` and `Interrupted` are the shapes of lexemes and faults (`isLexeme_of_read`,
`interrupted_of_read`).
-/

set_option autoImplicit false

namespace Calculator

/-! ## The parts of a number -/

/-- The characters are digits. -/
def Digits (s : List Char) : Prop := ∀ c ∈ s, c.isDigit

/-- A point and digits, or nothing. -/
inductive IsFraction : List Char → Prop where
  | none : IsFraction []
  | digits {ds} : Digits ds → IsFraction ('.' :: ds)

/-- A mark, a sign or none, and digits, or nothing. -/
inductive IsExponent : List Char → Prop where
  | none : IsExponent []
  | unsigned {mark ds} : isExponentMark mark → ds ≠ [] → Digits ds → IsExponent (mark :: ds)
  | signed {mark sign ds} : isExponentMark mark → isSign sign → ds ≠ [] → Digits ds →
      IsExponent (mark :: sign :: ds)

theorem digits_takeWhile (s : List Char) : Digits (s.takeWhile Char.isDigit) :=
  fun _ hc => of_mem_takeWhile hc

theorem Digits.cons {c : Char} {s : List Char} (hc : c.isDigit) (hs : Digits s) :
    Digits (c :: s) := by
  intro c' hc'
  rcases List.mem_cons.1 hc' with rfl | hc'
  · exact hc
  · exact hs c' hc'

theorem Digits.append {ds ds' : List Char} (h : Digits ds) (h' : Digits ds') :
    Digits (ds ++ ds') :=
  List.forall_mem_append.2 ⟨h, h'⟩

/-- The text does not start with a digit. -/
def NoDigitFirst (s : List Char) : Prop := ∀ c ∈ s.head?, c.isDigit = false

theorem Digits.takeWhile_append {ds s : List Char} (hds : Digits ds) (hs : NoDigitFirst s) :
    (ds ++ s).takeWhile Char.isDigit = ds ∧ (ds ++ s).dropWhile Char.isDigit = s := by
  rw [List.takeWhile_append_of_pos hds, List.dropWhile_append_of_pos hds]
  cases s with
  | nil => exact ⟨List.append_nil ds, rfl⟩
  | cons c s =>
      have hc : ¬ c.isDigit = true := Bool.eq_false_iff.1 (hs c rfl)
      exact ⟨by rw [List.takeWhile_cons_of_neg hc, List.append_nil],
        List.dropWhile_cons_of_neg hc⟩

theorem not_isDigit_of_isExponentMark {c : Char} (h : isExponentMark c) : c.isDigit = false := by
  rcases Bool.or_eq_true_iff.1 h with h | h
  · obtain rfl := of_decide_eq_true h
    decide
  · obtain rfl := of_decide_eq_true h
    decide

theorem noDigitFirst_dropWhile (s : List Char) : NoDigitFirst (s.dropWhile Char.isDigit) :=
  fun _ hc => of_mem_head?_dropWhile hc

theorem noDigitFirst_cutFraction {s : List Char} (h : NoDigitFirst s) :
    NoDigitFirst (cutFraction s).2 := by
  unfold cutFraction
  split
  · exact noDigitFirst_dropWhile _
  · exact h

theorem noDigitFirst_cutExponent {s : List Char} (h : NoDigitFirst s) :
    NoDigitFirst (cutExponent s).2 := by
  unfold cutExponent
  split
  · split
    · exact noDigitFirst_dropWhile _
    · split
      · exact noDigitFirst_dropWhile _
      · exact h
  · split
    · exact fun c hc => by cases hc
    · exact h
  · exact h

/-- A number goes on as long as there are digits. -/
theorem noDigitFirst_cutNumber (s : List Char) : NoDigitFirst (cutNumber s).2 :=
  noDigitFirst_cutExponent (noDigitFirst_cutFraction (noDigitFirst_dropWhile s))

theorem isFraction_cutFraction (s : List Char) : IsFraction (cutFraction s).1 := by
  unfold cutFraction
  split
  · exact .digits (digits_takeWhile _)
  · exact .none

theorem isExponent_cutExponent (s : List Char) : IsExponent (cutExponent s).1 := by
  unfold cutExponent
  split
  · split
    · rename_i h
      obtain ⟨h, hdigit⟩ := Bool.and_eq_true_iff.1 h
      obtain ⟨hmark, hsign⟩ := Bool.and_eq_true_iff.1 h
      exact .signed hmark hsign (List.cons_ne_nil _ _) ((digits_takeWhile _).cons hdigit)
    · split
      · rename_i h
        obtain ⟨hmark, hdigit⟩ := Bool.and_eq_true_iff.1 h
        exact .unsigned hmark (List.cons_ne_nil _ _) ((digits_takeWhile _).cons hdigit)
      · exact .none
  · split
    · rename_i h
      obtain ⟨hmark, hdigit⟩ := Bool.and_eq_true_iff.1 h
      exact .unsigned hmark (List.cons_ne_nil _ _) (Digits.cons hdigit fun _ hc => by cases hc)
    · exact .none
  · exact .none

/-! ## The characters of a number -/

/-- The characters of numbers. -/
def isNumeric (c : Char) : Bool := c.isDigit || (c = '.' || (isExponentMark c || isSign c))

theorem isNumeric_of_isExponentMark {c : Char} (h : isExponentMark c) : isNumeric c := by
  rw [isNumeric, h, Bool.true_or, Bool.or_true, Bool.or_true]

theorem isNumeric_of_isSign {c : Char} (h : isSign c) : isNumeric c := by
  rw [isNumeric, h, Bool.or_true, Bool.or_true, Bool.or_true]

theorem Digits.numeric {s : List Char} (h : Digits s) : ∀ c ∈ s, isNumeric c := by
  intro c hc
  rw [isNumeric, h c hc, Bool.true_or]

theorem IsFraction.numeric {s : List Char} (h : IsFraction s) : ∀ c ∈ s, isNumeric c := by
  intro c hc
  cases h with
  | none => cases hc
  | digits hds =>
      rcases List.mem_cons.1 hc with rfl | hc
      · decide
      · exact hds.numeric c hc

theorem IsExponent.numeric {s : List Char} (h : IsExponent s) : ∀ c ∈ s, isNumeric c := by
  intro c hc
  cases h with
  | none => cases hc
  | unsigned hmark _ hds =>
      rcases List.mem_cons.1 hc with rfl | hc
      · exact isNumeric_of_isExponentMark hmark
      · exact hds.numeric c hc
  | signed hmark hsign _ hds =>
      rcases List.mem_cons.1 hc with rfl | hc
      · exact isNumeric_of_isExponentMark hmark
      rcases List.mem_cons.1 hc with rfl | hc
      · exact isNumeric_of_isSign hsign
      · exact hds.numeric c hc

theorem isNumeric_cutNumber {s : List Char} : ∀ c ∈ (cutNumber s).1, isNumeric c := by
  intro c hc
  rcases List.mem_append.1 hc with hc | hc
  · rcases List.mem_append.1 hc with hc | hc
    · exact (digits_takeWhile s).numeric c hc
    · exact (isFraction_cutFraction _).numeric c hc
  · exact (isExponent_cutExponent _).numeric c hc

/-! ## Words and items -/

theorem itemOfWord_eq_lexeme {kind kind' : TokenKind} {cause : LexicalFault}
    {spoils : Char → Bool} {p : List Char × List Char} {text : List Char}
    (h : (itemOfWord kind cause spoils p).1 = .lexeme kind' text) : kind' = kind ∧ text = p.1 := by
  rcases p with ⟨word, rest⟩
  cases rest with
  | nil =>
      cases h
      exact ⟨rfl, rfl⟩
  | cons c rest =>
      simp only [itemOfWord] at h
      split at h
      · cases h
      · cases h
        exact ⟨rfl, rfl⟩

theorem itemOfWord_eq_fault {kind : TokenKind} {cause cause' : LexicalFault}
    {spoils : Char → Bool} {p : List Char × List Char} {before : List Char} {offender : Char}
    (h : (itemOfWord kind cause spoils p).1 = .fault cause' before offender) :
    cause' = cause ∧ before = p.1 ∧ offender ∈ p.2.head? ∧ spoils offender := by
  rcases p with ⟨word, rest⟩
  cases rest with
  | nil => cases h
  | cons c rest =>
      simp only [itemOfWord] at h
      split at h
      · rename_i hspoils
        cases h
        exact ⟨rfl, rfl, rfl, hspoils⟩
      · cases h

/-- How the item at the front of a text that starts with `c` is a lexeme. -/
theorem readItem_eq_lexeme {c : Char} {s text : List Char} {kind : TokenKind}
    (h : (readItem (c :: s)).1 = .lexeme kind text) :
    (c.isAlpha ∧ kind = .identifier ∧ text = (c :: s).takeWhile Char.isAlphanum) ∨
    (c.isDigit ∧ kind = .number ∧ text = (cutNumber (c :: s)).1) ∨
    (TokenKind.ofSymbol? c = some kind ∧ text = [c]) := by
  simp only [readItem] at h
  split at h
  · cases h
  · split at h
    · rename_i halpha
      obtain ⟨hkind, htext⟩ := itemOfWord_eq_lexeme h
      exact Or.inl ⟨halpha, hkind, htext⟩
    · split at h
      · rename_i hdigit
        obtain ⟨hkind, htext⟩ := itemOfWord_eq_lexeme h
        exact Or.inr (Or.inl ⟨hdigit, hkind, htext⟩)
      · split at h
        · rename_i hsymbol
          cases h
          exact Or.inr (Or.inr ⟨hsymbol, rfl⟩)
        · cases h

/-- The item of a reading is the one behind the blanks. -/
theorem item_read (s : List Char) : (read s).item = (readItem (cut isInlineBlank s).2).1 := rfl

/-- A class of characters without line feeds and carriage returns. -/
theorem within_line {p : Char → Bool} (hfeed : p '\n' = false) (hreturn : p '\r' = false)
    {c : Char} (h : p c) : c ≠ '\n' ∧ c ≠ '\r' := by
  constructor
  · rintro rfl
    rw [hfeed] at h
    cases h
  · rintro rfl
    rw [hreturn] at h
    cases h

/-- A lexeme has characters, and they all stand within a line. -/
theorem lexeme_characters {s text : List Char} {kind : TokenKind}
    (h : (read s).item = .lexeme kind text) : text ≠ [] ∧ ∀ c ∈ text, c ≠ '\n' ∧ c ≠ '\r' := by
  rw [item_read] at h
  generalize (cut isInlineBlank s).2 = s at h
  cases s with
  | nil => cases h
  | cons c s =>
      rcases readItem_eq_lexeme h with ⟨halpha, -, rfl⟩ | ⟨hdigit, -, rfl⟩ | ⟨hsymbol, rfl⟩
      · refine ⟨cut_fst_ne_nil (by simp [Char.isAlphanum, halpha]) s, ?_⟩
        intro c' hc'
        exact within_line (p := Char.isAlphanum) rfl rfl (of_mem_takeWhile hc')
      · refine ⟨cutNumber_fst_ne_nil hdigit s, ?_⟩
        intro c' hc'
        exact within_line (p := isNumeric) rfl rfl (isNumeric_cutNumber c' hc')
      · refine ⟨List.cons_ne_nil c [], ?_⟩
        intro c' hc'
        obtain rfl := List.mem_singleton.1 hc'
        exact within_line (p := fun c => (TokenKind.ofSymbol? c).isSome) rfl rfl
          (by rw [hsymbol]; rfl)

/-- Only at the end of a text is there no item. -/
theorem rest_of_finished {s : List Char} (h : (read s).item = .finished) : (read s).rest = [] := by
  have hs : (cut isInlineBlank s).2 = [] :=
    readItem_eq_finished (by rw [← item_read, h]; rfl)
  simp only [read, hs]
  rfl

/-! ## The shapes of items -/

/-- A letter of ASCII, and letters and digits behind it. -/
def IsName (word : List Char) : Prop :=
  (∃ c rest, word = c :: rest ∧ c.isAlpha) ∧ ∀ c ∈ word, c.isAlphanum

/-- Digits, then a fraction or nothing, then an exponent or nothing. -/
def IsNumber (word : List Char) : Prop :=
  ∃ ds fraction exponent, word = ds ++ fraction ++ exponent ∧ ds ≠ [] ∧ Digits ds ∧
    IsFraction fraction ∧ IsExponent exponent

/-- The operators and the parentheses with their kinds. -/
inductive IsSymbol : Char → TokenKind → Prop where
  | plus : IsSymbol '+' .plus
  | minus : IsSymbol '-' .minus
  | multiply : IsSymbol '*' .multiply
  | divide : IsSymbol '/' .divide
  | power : IsSymbol '^' .power
  | leftParen : IsSymbol '(' .leftParen
  | rightParen : IsSymbol ')' .rightParen

/-- The symbols that are looked up are the operators and the parentheses. -/
theorem isSymbol_iff {c : Char} {kind : TokenKind} :
    IsSymbol c kind ↔ TokenKind.ofSymbol? c = some kind := by
  constructor
  · intro h
    cases h <;> rfl
  · intro h
    unfold TokenKind.ofSymbol? at h
    split at h <;> cases h <;> constructor

theorem ofSymbol?_eq_none {c : Char} :
    TokenKind.ofSymbol? c = none ↔ ∀ kind, ¬ IsSymbol c kind := by
  simp only [isSymbol_iff, Option.eq_none_iff_forall_ne_some, ne_eq]

/-- The texts of the lexemes of a kind. -/
inductive IsLexeme : TokenKind → List Char → Prop where
  | identifier {word} : IsName word → IsLexeme .identifier word
  | number {word} : IsNumber word → IsLexeme .number word
  | symbol {c kind} : IsSymbol c kind → IsLexeme kind [c]

/-- A word that has been read, if there is one, and the character behind it that is out of
place. -/
inductive Interrupted : LexicalFault → List Char → Char → Prop where
  | character {word c} : IsName word → Text.isLetter c → ¬ c.isAlphanum →
      Interrupted .character word c
  | digit {word c} : IsNumber word → Text.isDigit c → ¬ c.isDigit → Interrupted .digit word c
  | symbol {c} : ¬ Text.isBlank c → ¬ c.isAlphanum → (∀ kind, ¬ IsSymbol c kind) →
      Interrupted .symbol [] c

theorem isName_takeWhile {c : Char} (h : c.isAlpha) (s : List Char) :
    IsName ((c :: s).takeWhile Char.isAlphanum) := by
  have hc : c.isAlphanum := by simp [Char.isAlphanum, h]
  exact ⟨⟨c, s.takeWhile Char.isAlphanum, List.takeWhile_cons_of_pos hc, h⟩,
    fun _ => of_mem_takeWhile⟩

theorem isNumber_cutNumber {c : Char} (h : c.isDigit) (s : List Char) :
    IsNumber (cutNumber (c :: s)).1 :=
  ⟨_, _, _, rfl, cut_fst_ne_nil h s, digits_takeWhile _, isFraction_cutFraction _,
    isExponent_cutExponent _⟩

theorem IsLexeme.ne_nil {kind : TokenKind} {text : List Char} (h : IsLexeme kind text) :
    text ≠ [] := by
  cases h with
  | identifier h =>
      obtain ⟨⟨c, rest, rfl, -⟩, -⟩ := h
      exact List.cons_ne_nil c rest
  | number h =>
      obtain ⟨ds, fraction, exponent, rfl, hds, -⟩ := h
      simp [hds]
  | symbol _ => exact List.cons_ne_nil _ _

/-- A lexeme has a text of its kind. -/
theorem isLexeme_of_read {s text : List Char} {kind : TokenKind}
    (h : (read s).item = .lexeme kind text) : IsLexeme kind text := by
  rw [item_read] at h
  generalize (cut isInlineBlank s).2 = s at h
  cases s with
  | nil => cases h
  | cons c s =>
      rcases readItem_eq_lexeme h with ⟨halpha, rfl, rfl⟩ | ⟨hdigit, rfl, rfl⟩ | ⟨hsymbol, rfl⟩
      · exact .identifier (isName_takeWhile halpha s)
      · exact .number (isNumber_cutNumber hdigit s)
      · exact .symbol (isSymbol_iff.2 hsymbol)

/-- No lexeme is an end. -/
theorem IsLexeme.kind_ne {kind : TokenKind} {text : List Char} (h : IsLexeme kind text) :
    kind ≠ .endOfInput ∧ kind ≠ .endOfLine := by
  cases h with
  | identifier _ => decide
  | number _ => decide
  | symbol hsymbol => cases hsymbol <;> decide

/-- No lexeme is the end of the input. -/
theorem lexeme_ne_endOfInput {s text : List Char} {kind : TokenKind}
    (h : (read s).item = .lexeme kind text) : kind ≠ .endOfInput :=
  (isLexeme_of_read h).kind_ne.1

/-- A fault is a word that does not go on as it should, or a character that starts no item. -/
theorem interrupted_of_read {s word : List Char} {cause : LexicalFault} {offender : Char}
    (h : (read s).item = .fault cause word offender) : Interrupted cause word offender := by
  rw [item_read] at h
  -- the blanks in front have been dropped
  have hfirst : ∀ c ∈ (cut isInlineBlank s).2.head?, isInlineBlank c = false :=
    fun c hc => of_mem_head?_dropWhile hc
  generalize (cut isInlineBlank s).2 = s at h hfirst
  cases s with
  | nil => cases h
  | cons c s =>
      simp only [readItem] at h
      split at h
      · cases h
      · rename_i hc
        split at h
        · rename_i halpha
          obtain ⟨rfl, rfl, hrest, hspoils⟩ := itemOfWord_eq_fault h
          exact .character (isName_takeWhile halpha s) hspoils
            (Bool.eq_false_iff.1 (of_mem_head?_dropWhile hrest))
        · rename_i halpha
          split at h
          · rename_i hdigit
            obtain ⟨rfl, rfl, hrest, hspoils⟩ := itemOfWord_eq_fault h
            exact .digit (isNumber_cutNumber hdigit s) hspoils
              (Bool.eq_false_iff.1 (noDigitFirst_cutNumber _ _ hrest))
          · rename_i hdigit
            split at h
            · cases h
            · rename_i hsymbol
              cases h
              have hblank : isInlineBlank offender = false := hfirst offender rfl
              refine .symbol ?_ (by simp [Char.isAlphanum, halpha, hdigit])
                (ofSymbol?_eq_none.1 hsymbol)
              simpa [isInlineBlank, hc] using hblank

theorem not_isLetter_newline : Text.isLetter '\n' = false := by decide +kernel

theorem not_isDigit_newline : Text.isDigit '\n' = false := by decide

/-- The character that causes a fault ends no line. -/
theorem offender_ne_newline {s before : List Char} {cause : LexicalFault} {offender : Char}
    (h : (read s).item = .fault cause before offender) : offender ≠ '\n' := by
  rintro rfl
  cases interrupted_of_read h with
  | character _ hletter _ =>
      rw [not_isLetter_newline] at hletter
      cases hletter
  | digit _ hdigit _ =>
      rw [not_isDigit_newline] at hdigit
      cases hdigit
  | symbol hblank _ _ => exact hblank (by decide)

end Calculator
