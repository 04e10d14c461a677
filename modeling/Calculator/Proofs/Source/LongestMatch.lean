import Calculator.Proofs.Source.Progress

/-!
# Longest matches

The scan is the lexer of the longest match: behind the blanks of a line it takes the longest name or
the longest number that the text starts with, unless a character follows that spoils it
(`scan_iff_lexes`). That holds wherever scanning has come to, also behind diagnostics.

Names and numbers are given by their shapes (`IsName`, `IsNumber`), whereas the scan reads on
character by character and looks ahead for an exponent. That reading on is longest of all is
`isLongestFront_takeWhile` for names and `isLongestFront_cutNumber` for numbers.
-/

set_option autoImplicit false

namespace Calculator

/-! ## Longest fronts -/

/-- A front of a text that is longest among the fronts of a shape. -/
structure IsLongestFront (Shape : List Char → Prop) (s word : List Char) : Prop where
  isPrefix : word <+: s
  hasShape : Shape word
  longest : ∀ front, front <+: s → Shape front → front.length ≤ word.length

theorem IsLongestFront.unique {Shape : List Char → Prop} {s word word' : List Char}
    (h : IsLongestFront Shape s word) (h' : IsLongestFront Shape s word') : word = word' := by
  have hlength : word.length = word'.length :=
    Nat.le_antisymm (h'.longest word h.isPrefix h.hasShape)
      (h.longest word' h'.isPrefix h'.hasShape)
  exact (List.prefix_of_prefix_length_le h.isPrefix h'.isPrefix (Nat.le_of_eq hlength)).eq_of_length
    hlength

/-- A front of characters of a class does not go beyond the first other character. -/
theorem length_le_takeWhile {p : Char → Bool} {s front : List Char} (h : front <+: s)
    (hfront : ∀ c ∈ front, p c) : front.length ≤ (s.takeWhile p).length := by
  obtain ⟨rest, rfl⟩ := h
  rw [List.takeWhile_append_of_pos hfront, List.length_append]
  exact Nat.le_add_right _ _

/-- **Letters and digits as far as they go are the longest name.** -/
theorem isLongestFront_takeWhile {c : Char} (h : c.isAlpha) (s : List Char) :
    IsLongestFront IsName (c :: s) ((c :: s).takeWhile Char.isAlphanum) where
  isPrefix := List.takeWhile_prefix Char.isAlphanum
  hasShape := isName_takeWhile h s
  longest := by
    rintro front hfront ⟨-, hcharacters⟩
    exact length_le_takeWhile hfront hcharacters

/-! ## The longest number -/

/-- The exponent that is cut off is the longest one. -/
theorem length_le_cutExponent {s exponent : List Char} (h : IsExponent exponent)
    (hfront : exponent <+: s) : exponent.length ≤ (cutExponent s).1.length := by
  obtain ⟨rest, rfl⟩ := hfront
  cases h with
  | none => exact Nat.zero_le _
  | @unsigned mark ds hmark hne hds =>
      obtain ⟨d, ds, rfl⟩ := List.exists_cons_of_ne_nil hne
      have hd : d.isDigit := hds d List.mem_cons_self
      have hnosign : isSign d = false := by
        rw [Bool.eq_false_iff]
        intro hsign
        rcases Bool.or_eq_true_iff.1 hsign with hsign | hsign
        · obtain rfl := of_decide_eq_true hsign
          cases hd
        · obtain rfl := of_decide_eq_true hsign
          cases hd
      -- whether a third character is looked at depends on what follows
      cases hrest : ds ++ rest with
      | nil =>
          obtain ⟨rfl, rfl⟩ := List.append_eq_nil_iff.1 hrest
          simp [cutExponent, hmark, hd]
      | cons c more =>
          have hlength := length_le_takeWhile (List.prefix_append ds rest)
            fun c hc => hds c (List.mem_cons_of_mem d hc)
          rw [hrest] at hlength
          simp only [List.cons_append, hrest, cutExponent, hmark, hd, hnosign, Bool.true_and,
            Bool.false_and, Bool.false_eq_true, if_false, if_true, List.length_cons]
          omega
  | @signed mark sign ds hmark hsign hne hds =>
      obtain ⟨d, ds, rfl⟩ := List.exists_cons_of_ne_nil hne
      have hd : d.isDigit := hds d List.mem_cons_self
      have hlength := length_le_takeWhile (List.prefix_append ds rest)
        fun c hc => hds c (List.mem_cons_of_mem d hc)
      simp only [List.cons_append, cutExponent, hmark, hsign, hd, Bool.true_and, if_true,
        List.length_cons]
      omega

/-- An exponent that is there starts neither with a digit nor with a point. -/
theorem IsExponent.head {exponent : List Char} (h : IsExponent exponent) (hne : exponent ≠ [])
    (rest : List Char) : NoDigitFirst (exponent ++ rest) ∧ '.' ∉ (exponent ++ rest).head? := by
  have hmarks {mark : Char} (hmark : isExponentMark mark) (tail : List Char) :
      NoDigitFirst (mark :: tail) ∧ '.' ∉ (mark :: tail).head? := by
    refine ⟨?_, ?_⟩
    · intro c hc
      obtain rfl := Option.some.inj hc
      exact not_isDigit_of_isExponentMark hmark
    · intro hpoint
      obtain rfl := Option.some.inj hpoint
      cases hmark
  cases h with
  | none => exact absurd rfl hne
  | unsigned hmark _ _ => exact hmarks hmark _
  | signed hmark _ _ _ => exact hmarks hmark _

/-- A fraction that does not go on with digits is cut off as it is. -/
theorem cutFraction_append_of_head {fraction rest : List Char} (h : IsFraction fraction)
    (hrest : NoDigitFirst rest) (hpoint : '.' ∉ rest.head?) :
    cutFraction (fraction ++ rest) = (fraction, rest) := by
  cases h with
  | none =>
      cases rest with
      | nil => rfl
      | cons c rest =>
          rw [List.nil_append, cutFraction]
          rintro s' hs
          obtain ⟨rfl, -⟩ := List.cons.inj hs
          exact hpoint rfl
  | digits hds =>
      obtain ⟨htake, hdrop⟩ := hds.takeWhile_append hrest
      simp only [List.cons_append, cutFraction, htake, hdrop]

/-- The fraction that is cut off is the longest one. -/
theorem length_le_cutFraction {s fraction : List Char} (h : IsFraction fraction)
    (hfront : fraction <+: s) : fraction.length ≤ (cutFraction s).1.length := by
  obtain ⟨rest, rfl⟩ := hfront
  cases h with
  | none => exact Nat.zero_le _
  | @digits ds hds =>
      have hlength := length_le_takeWhile (List.prefix_append ds rest) hds
      simp only [List.cons_append, cutFraction, List.length_cons]
      omega

/-- The digits in front of a fraction or an exponent that is there are all the digits. -/
theorem noDigitFirst_fraction_append {fraction rest : List Char} (h : IsFraction fraction)
    (hrest : fraction = [] → NoDigitFirst rest) : NoDigitFirst (fraction ++ rest) := by
  cases h with
  | none => exact hrest rfl
  | digits _ =>
      intro c hc
      obtain rfl := Option.some.inj hc
      decide

theorem length_le_cutNumber {s number : List Char} (h : IsNumber number) (hfront : number <+: s) :
    number.length ≤ (cutNumber s).1.length := by
  obtain ⟨rest, rfl⟩ := hfront
  obtain ⟨ds, fraction, exponent, rfl, -, hds, hfraction, hexponent⟩ := h
  simp only [cutNumber, cut, List.append_assoc, List.length_append]
  -- the parts of the number are those that are cut off, up to the last part that is there
  by_cases hnone : exponent = []
  · subst hnone
    rw [List.nil_append]
    by_cases hwhole : fraction = []
    · subst hwhole
      have hlength := length_le_takeWhile (List.prefix_append ds rest) hds
      rw [List.nil_append, List.length_nil]
      omega
    · have hdigits : NoDigitFirst (fraction ++ rest) :=
        noDigitFirst_fraction_append hfraction fun hnil => absurd hnil hwhole
      obtain ⟨htake, hdrop⟩ := hds.takeWhile_append hdigits
      have hlength := length_le_cutFraction hfraction (List.prefix_append fraction rest)
      rw [htake, hdrop, List.length_nil]
      omega
  · obtain ⟨hmark, hpoint⟩ := hexponent.head hnone rest
    obtain ⟨htake, hdrop⟩ := hds.takeWhile_append
      (noDigitFirst_fraction_append hfraction fun _ => hmark)
    have hlength := length_le_cutExponent hexponent (List.prefix_append exponent rest)
    rw [htake, hdrop, cutFraction_append_of_head hfraction hmark hpoint]
    exact Nat.add_le_add_left (Nat.add_le_add_left hlength _) _

/-- **Digits, fraction and exponent as far as they go are the longest number.** -/
theorem isLongestFront_cutNumber {c : Char} (h : c.isDigit) (s : List Char) :
    IsLongestFront IsNumber (c :: s) (cutNumber (c :: s)).1 where
  isPrefix := ⟨(cutNumber (c :: s)).2, cutNumber_append (c :: s)⟩
  hasShape := isNumber_cutNumber h s
  longest := fun _ hfront hshape => length_le_cutNumber hshape hfront

/-! ## Items by longest matches -/

/-- The item at the front of a text that starts with no blank other than a line feed, and the rest,
by the grammar of tokens. -/
inductive Lexes : List Char → Item → List Char → Prop where
  | finished : Lexes [] .finished []
  | lineFeed {rest} : Lexes ('\n' :: rest) .lineFeed rest
  | identifier {word rest} : IsLongestFront IsName (word ++ rest) word →
      (∀ c ∈ rest.head?, ¬ Text.isLetter c) →
      Lexes (word ++ rest) (.lexeme .identifier word) rest
  | character {word c rest} : IsLongestFront IsName (word ++ c :: rest) word → Text.isLetter c →
      Lexes (word ++ c :: rest) (.fault .character word c) rest
  | number {word rest} : IsLongestFront IsNumber (word ++ rest) word →
      (∀ c ∈ rest.head?, ¬ Text.isDigit c) →
      Lexes (word ++ rest) (.lexeme .number word) rest
  | digit {word c rest} : IsLongestFront IsNumber (word ++ c :: rest) word → Text.isDigit c →
      Lexes (word ++ c :: rest) (.fault .digit word c) rest
  | symbol {c kind rest} : IsSymbol c kind → Lexes (c :: rest) (.lexeme kind [c]) rest
  | unknown {c rest} : c ≠ '\n' → ¬ c.isAlpha → ¬ c.isDigit → (∀ kind, ¬ IsSymbol c kind) →
      Lexes (c :: rest) (.fault .symbol [] c) rest

/-! ## Reading a word -/

section Words

variable {kind : TokenKind} {cause : LexicalFault} {spoils : Char → Bool} {word rest : List Char}

theorem itemOfWord_of_head (h : ∀ c ∈ rest.head?, ¬ spoils c) :
    itemOfWord kind cause spoils (word, rest) = (.lexeme kind word, rest) := by
  cases rest with
  | nil => rfl
  | cons c rest => exact if_neg (h c rfl)

theorem itemOfWord_of_spoils {c : Char} (h : spoils c) :
    itemOfWord kind cause spoils (word, c :: rest) = (.fault cause word c, rest) :=
  if_pos h

/-- A word is spoiled by the character behind it or is a lexeme. -/
theorem head_cases (spoils : Char → Bool) (rest : List Char) :
    (∀ c ∈ rest.head?, ¬ spoils c) ∨ ∃ c more, rest = c :: more ∧ spoils c := by
  cases rest with
  | nil => exact .inl fun c hc => by cases hc
  | cons c more =>
      by_cases h : spoils c
      · exact .inr ⟨c, more, rfl, h⟩
      · refine .inl fun c' hc' => ?_
        obtain rfl := Option.some.inj hc'
        exact h

end Words

theorem readItem_of_isAlpha {c : Char} (h : c.isAlpha) (s : List Char) :
    readItem (c :: s) =
      itemOfWord .identifier .character Text.isLetter (cut Char.isAlphanum (c :: s)) := by
  have hfeed : c ≠ '\n' := (within_line (p := Char.isAlpha) rfl rfl h).1
  rw [readItem, if_neg hfeed, if_pos h]

theorem readItem_of_isDigit {c : Char} (h : c.isDigit) (s : List Char) :
    readItem (c :: s) = itemOfWord .number .digit Text.isDigit (cutNumber (c :: s)) := by
  have hfeed : c ≠ '\n' := (within_line (p := Char.isDigit) rfl rfl h).1
  rw [readItem, if_neg hfeed, if_neg (not_isAlpha_of_isDigit h), if_pos h]

/-- A longest name is what is cut off, and the rest is what is left. -/
theorem readItem_of_name {word rest : List Char} (h : IsLongestFront IsName (word ++ rest) word) :
    readItem (word ++ rest) = itemOfWord .identifier .character Text.isLetter (word, rest) := by
  obtain ⟨⟨c, tail, rfl, halpha⟩, -⟩ := h.hasShape
  have hword := h.unique (isLongestFront_takeWhile halpha (tail ++ rest))
  have happend := cut_append Char.isAlphanum (c :: (tail ++ rest))
  rw [List.cons_append, readItem_of_isAlpha halpha]
  refine congrArg _ (Prod.ext hword.symm ?_)
  rw [cut, ← hword] at happend
  exact List.append_cancel_left happend

theorem readItem_of_number {word rest : List Char}
    (h : IsLongestFront IsNumber (word ++ rest) word) :
    readItem (word ++ rest) = itemOfWord .number .digit Text.isDigit (word, rest) := by
  obtain ⟨ds, fraction, exponent, hparts, hne, hds, -⟩ := h.hasShape
  obtain ⟨c, ds, rfl⟩ := List.exists_cons_of_ne_nil hne
  have hdigit : c.isDigit := hds c List.mem_cons_self
  obtain ⟨tail, rfl⟩ : ∃ tail, word = c :: tail := ⟨_, hparts⟩
  have hword := h.unique (isLongestFront_cutNumber hdigit (tail ++ rest))
  have happend := cutNumber_append (c :: (tail ++ rest))
  rw [List.cons_append, readItem_of_isDigit hdigit]
  refine congrArg _ (Prod.ext hword.symm ?_)
  rw [← hword] at happend
  exact List.append_cancel_left happend

/-! ## The lexer of the longest match -/

/-- The item that is read is one that the grammar gives. -/
theorem lexes_readItem (s : List Char) : Lexes s (readItem s).1 (readItem s).2 := by
  cases s with
  | nil => exact .finished
  | cons c s =>
      by_cases hfeed : c = '\n'
      · subst hfeed
        exact .lineFeed
      by_cases halpha : c.isAlpha
      · obtain ⟨word, hlongest⟩ : ∃ word, IsLongestFront IsName (c :: s) word :=
          ⟨_, isLongestFront_takeWhile halpha s⟩
        obtain ⟨rest, happend⟩ := hlongest.isPrefix
        rw [← happend] at hlongest ⊢
        rw [readItem_of_name hlongest]
        rcases head_cases Text.isLetter rest with hrest | ⟨c', more, rfl, hspoils⟩
        · rw [itemOfWord_of_head hrest]
          exact .identifier hlongest hrest
        · rw [itemOfWord_of_spoils hspoils]
          exact .character hlongest hspoils
      by_cases hdigit : c.isDigit
      · obtain ⟨word, hlongest⟩ : ∃ word, IsLongestFront IsNumber (c :: s) word :=
          ⟨_, isLongestFront_cutNumber hdigit s⟩
        obtain ⟨rest, happend⟩ := hlongest.isPrefix
        rw [← happend] at hlongest ⊢
        rw [readItem_of_number hlongest]
        rcases head_cases Text.isDigit rest with hrest | ⟨c', more, rfl, hspoils⟩
        · rw [itemOfWord_of_head hrest]
          exact .number hlongest hrest
        · rw [itemOfWord_of_spoils hspoils]
          exact .digit hlongest hspoils
      rw [readItem, if_neg hfeed, if_neg halpha, if_neg hdigit]
      cases hsymbol : TokenKind.ofSymbol? c with
      | some kind => exact .symbol (isSymbol_iff.2 hsymbol)
      | none => exact .unknown hfeed halpha hdigit (ofSymbol?_eq_none.1 hsymbol)

theorem readItem_of_symbol {c : Char} {kind : TokenKind} (h : IsSymbol c kind) (rest : List Char) :
    readItem (c :: rest) = (.lexeme kind [c], rest) := by
  cases h <;> rfl

/-- **The grammar gives one item, which is the one that is read.** -/
theorem lexes_iff {s rest : List Char} {item : Item} :
    Lexes s item rest ↔ readItem s = (item, rest) := by
  constructor
  · intro h
    cases h with
    | finished => rfl
    | lineFeed => rfl
    | identifier hlongest hrest => rw [readItem_of_name hlongest, itemOfWord_of_head hrest]
    | character hlongest hspoils => rw [readItem_of_name hlongest, itemOfWord_of_spoils hspoils]
    | number hlongest hrest => rw [readItem_of_number hlongest, itemOfWord_of_head hrest]
    | digit hlongest hspoils => rw [readItem_of_number hlongest, itemOfWord_of_spoils hspoils]
    | symbol hsymbol => exact readItem_of_symbol hsymbol rest
    | unknown hfeed halpha hdigit hsymbol =>
        rw [readItem, if_neg hfeed, if_neg halpha, if_neg hdigit, ofSymbol?_eq_none.2 hsymbol]
  · intro h
    have hlexes := lexes_readItem s
    rwa [h] at hlexes

/-- **The scan is the lexer of the longest match.** Wherever the scanning of a source has come to,
the next scan returns the item that the grammar gives for what follows the blanks of the line, at
its place in the source, and leaves what is behind the item. -/
theorem scan_iff_lexes (s : List Char) (n : Nat) :
    ∃ before, s = before ++ ((Cursor.ofText s).after n).ahead ∧
      ∀ (result : Except Diagnostic Token) (rest : List Char),
        ((Cursor.ofText s).after n).scan.1 = result ∧
            ((Cursor.ofText s).after n).scan.2.ahead = rest ↔
          ∃ item,
            Lexes (((Cursor.ofText s).after n).ahead.dropWhile isInlineBlank) item rest ∧
            result = item.result
              (before ++ ((Cursor.ofText s).after n).ahead.takeWhile isInlineBlank) := by
  obtain ⟨hahead, hpassed⟩ := (Cursor.ofText s).after_eq n
  refine ⟨(Cursor.ofText s).takenIn n, hahead, ?_⟩
  intro result rest
  have hresult := Cursor.scan_fst_eq hpassed
  constructor
  · rintro ⟨rfl, rfl⟩
    exact ⟨_, lexes_readItem _, hresult⟩
  · rintro ⟨item, hlexes, rfl⟩
    have hitem := lexes_iff.1 hlexes
    refine ⟨?_, congrArg Prod.snd hitem⟩
    rw [hresult, item_read]
    exact congrArg (fun r => Item.result _ r.1) hitem

end Calculator
