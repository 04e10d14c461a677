import Calculator.Text.Blank
import Calculator.Text.Digit
import Calculator.Text.Letter
import Calculator.Token

/-!
# One reading of the source

`read` looks at the front of a text: the blanks there other than line feeds, and
the item that follows. An item is the end of the text, a line feed, a longest
identifier or number, a symbol, or a fault with the character that causes it.
An exponent belongs to a number only if a digit follows its mark and sign.
-/

namespace Calculator

/-- Blanks that end no line. -/
def isInlineBlank (c : Char) : Bool := Text.isBlank c && c != '\n'

/-- The mark of a decimal exponent. -/
def isExponentMark (c : Char) : Bool := c = 'e' || c = 'E'

/-- The sign of a decimal exponent. -/
def isSign (c : Char) : Bool := c = '+' || c = '-'

/-- The longest front of a text whose characters satisfy `p`, and the rest. -/
def cut (p : Char → Bool) (s : List Char) : List Char × List Char :=
  (s.takeWhile p, s.dropWhile p)

/-- A point and the digits after it, if the text goes on so. -/
def cutFraction : List Char → List Char × List Char
  | '.' :: s => ('.' :: s.takeWhile Char.isDigit, s.dropWhile Char.isDigit)
  | s => ([], s)

/-- An exponent mark, a sign or none, and at least one digit, if the text goes on
so. -/
def cutExponent : List Char → List Char × List Char
  | mark :: sign :: digit :: s =>
    if isExponentMark mark && isSign sign && digit.isDigit then
      (mark :: sign :: digit :: s.takeWhile Char.isDigit, s.dropWhile Char.isDigit)
    else if isExponentMark mark && sign.isDigit then
      (mark :: sign :: (digit :: s).takeWhile Char.isDigit, (digit :: s).dropWhile Char.isDigit)
    else ([], mark :: sign :: digit :: s)
  | [mark, digit] =>
    if isExponentMark mark && digit.isDigit then ([mark, digit], []) else ([], [mark, digit])
  | s => ([], s)

/-- Digits, then a fraction, then an exponent. -/
def cutNumber (s : List Char) : List Char × List Char :=
  let digits := cut Char.isDigit s
  let fraction := cutFraction digits.2
  let exponent := cutExponent fraction.2
  (digits.1 ++ fraction.1 ++ exponent.1, exponent.2)

/-- The ways in which a character can be out of place. -/
inductive LexicalFault where
  | character
  | digit
  | symbol
deriving DecidableEq, Repr

/-- What a lexical fault finds. -/
def LexicalFault.name : LexicalFault → String
  | character => "character"
  | digit => "digit"
  | symbol => "symbol"

/-- What stands after the blanks at the front of a text. -/
inductive Item where
  | finished
  | lineFeed
  | lexeme (kind : TokenKind) (text : List Char)
  | fault (cause : LexicalFault) (before : List Char) (offender : Char)
deriving DecidableEq, Repr

/-- The characters that make up an item. -/
def Item.chars : Item → List Char
  | finished => []
  | lineFeed => ['\n']
  | lexeme _ text => text
  | fault _ before offender => before ++ [offender]

/-- An identifier or number that was cut off the text, unless the next character
satisfies `spoils`. -/
def itemOfWord (kind : TokenKind) (cause : LexicalFault) (spoils : Char → Bool) :
    List Char × List Char → Item × List Char
  | (word, c :: rest) =>
    if spoils c then (.fault cause word c, rest) else (.lexeme kind word, c :: rest)
  | (word, []) => (.lexeme kind word, [])

/-- The item at the front of a text without blanks there, and the rest. -/
def readItem : List Char → Item × List Char
  | [] => (.finished, [])
  | c :: s =>
    if c = '\n' then (.lineFeed, s)
    else if c.isAlpha then
      itemOfWord .identifier .character Text.isLetter (cut Char.isAlphanum (c :: s))
    else if c.isDigit then itemOfWord .number .digit Text.isDigit (cutNumber (c :: s))
    else match TokenKind.ofSymbol? c with
      | some kind => (.lexeme kind [c], s)
      | none => (.fault .symbol [] c, s)

/-- Blanks, the item after them, and the text not yet read. -/
structure Reading where
  blanks : List Char
  item : Item
  rest : List Char
deriving DecidableEq, Repr

/-- One reading at the front of a text. -/
def read (s : List Char) : Reading :=
  let (blanks, s) := cut isInlineBlank s
  let (item, rest) := readItem s
  ⟨blanks, item, rest⟩

/-! ## Nothing is lost -/

theorem cut_append (p : Char → Bool) (s : List Char) : (cut p s).1 ++ (cut p s).2 = s :=
  List.takeWhile_append_dropWhile

theorem cutFraction_append (s : List Char) : (cutFraction s).1 ++ (cutFraction s).2 = s := by
  unfold cutFraction
  split <;> simp [List.takeWhile_append_dropWhile]

theorem cutExponent_append (s : List Char) : (cutExponent s).1 ++ (cutExponent s).2 = s := by
  unfold cutExponent
  split
  · split
    · simp [List.takeWhile_append_dropWhile]
    · split
      · simp only [List.cons_append, List.takeWhile_append_dropWhile]
      · rfl
  · split <;> rfl
  · rfl

theorem cutNumber_append (s : List Char) : (cutNumber s).1 ++ (cutNumber s).2 = s := by
  simp only [cutNumber, List.append_assoc, cutExponent_append, cutFraction_append, cut_append]

theorem itemOfWord_append (kind : TokenKind) (cause : LexicalFault) (spoils : Char → Bool)
    (p : List Char × List Char) :
    (itemOfWord kind cause spoils p).1.chars ++ (itemOfWord kind cause spoils p).2 =
      p.1 ++ p.2 := by
  rcases p with ⟨word, rest⟩
  cases rest with
  | nil => simp [itemOfWord, Item.chars]
  | cons c rest =>
    simp only [itemOfWord]
    split <;> simp [Item.chars]

theorem readItem_append (s : List Char) : (readItem s).1.chars ++ (readItem s).2 = s := by
  unfold readItem
  split
  · rfl
  · split
    · subst_vars; rfl
    · split
      · rw [itemOfWord_append, cut_append]
      · split
        · rw [itemOfWord_append, cutNumber_append]
        · split <;> rfl

/-- A reading splits the text into blanks, item and rest. -/
theorem read_append (s : List Char) :
    (read s).blanks ++ ((read s).item.chars ++ (read s).rest) = s := by
  simp only [read, readItem_append, cut_append]

/-! ## Reading makes progress -/

theorem cut_fst_ne_nil {p : Char → Bool} {c : Char} (h : p c) (s : List Char) :
    (cut p (c :: s)).1 ≠ [] := by
  simp [cut, h]

theorem cutNumber_fst_ne_nil {c : Char} (h : c.isDigit) (s : List Char) :
    (cutNumber (c :: s)).1 ≠ [] := by
  simp [cutNumber, cut, h]

theorem chars_itemOfWord_ne_nil {kind : TokenKind} {cause : LexicalFault}
    {spoils : Char → Bool} {p : List Char × List Char} (h : p.1 ≠ []) :
    (itemOfWord kind cause spoils p).1.chars ≠ [] := by
  rcases p with ⟨word, rest⟩
  cases rest with
  | nil => simpa [itemOfWord, Item.chars] using h
  | cons c rest =>
    simp only [itemOfWord]
    split
    · simp [Item.chars]
    · simpa [Item.chars] using h

/-- Only the end of the text is an item without characters. -/
theorem readItem_eq_finished {s : List Char} (h : (readItem s).1.chars = []) : s = [] := by
  cases s with
  | nil => rfl
  | cons c s =>
    exfalso
    revert h
    simp only [readItem]
    split
    · simp [Item.chars]
    · split
      · rename_i h
        exact chars_itemOfWord_ne_nil (cut_fst_ne_nil (by simp [Char.isAlphanum, h]) s)
      · split
        · rename_i h
          exact chars_itemOfWord_ne_nil (cutNumber_fst_ne_nil h s)
        · cases TokenKind.ofSymbol? c <;> simp [Item.chars]

theorem chars_item_ne_nil {s : List Char} (h : (read s).item ≠ .finished) :
    (read s).item.chars ≠ [] := by
  intro hc
  apply h
  have hs : (cut isInlineBlank s).2 = [] := readItem_eq_finished hc
  simp only [read, hs]
  rfl

/-- Unless the end is reached, a reading leaves less than there was. -/
theorem length_rest_read_lt {s : List Char} (h : (read s).item ≠ .finished) :
    (read s).rest.length < s.length := by
  have happ := congrArg List.length (read_append s)
  simp only [List.length_append] at happ
  have := List.length_pos_iff.2 (chars_item_ne_nil h)
  omega

end Calculator
