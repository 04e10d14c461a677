import Calculator.Source.Cursor
import Calculator.Source.Supply
import Calculator.Trouble

/-!
# Transcripts

The tokens of a whole source as far as they can be scanned, ends of lines left
out. Each token comes with the text passed when it had been read, since a
diagnostic shows as much of the current line as had been passed when it arose.
Where a supply fails, no token is scanned that needs a look at what is missing.
-/

namespace Calculator

/-- A token, and the text passed behind it. -/
structure Entry where
  token : Token
  passed : Passed
deriving DecidableEq, Repr

/-- The tokens of a source in order, and the end of the input or the trouble that
stopped the scan. -/
structure Transcript where
  entries : List Entry
  ending : Except Trouble Entry

namespace Transcript

/-- The transcript of the results of scanning. -/
def ofResults : List (Except Diagnostic Token × Cursor) → Transcript
  | [] => ⟨[], .ok ⟨⟨⟨.endOfInput, ""⟩, Passed.start.position⟩, .start⟩⟩
  | (.error e, _) :: _ => ⟨[], .error (.diagnosed e)⟩
  | (.ok t, c) :: rest =>
    if t.kind = .endOfInput then ⟨[], .ok ⟨t, c.passed⟩⟩
    else
      let tail := ofResults rest
      if t.kind = .endOfLine then tail else ⟨⟨t, c.passed⟩ :: tail.entries, tail.ending⟩

/-- The transcript of a source. -/
def ofText (s : List Char) : Transcript := ofResults (Cursor.ofText s).results

/-- Whether a result depends on what follows the text, where `ahead` is left of it. A
word ends before a character that does not belong to it, and an exponent is known
by a digit. -/
def looksBehind (result : Except Diagnostic Token) (ahead : List Char) : Bool :=
  match result with
  | .error _ => false
  | .ok t =>
    match t.kind, ahead with
    | .endOfInput, _ | .identifier, [] | .number, [] => true
    | .number, [mark] => isExponentMark mark && !t.text.toList.any isExponentMark
    | .number, [mark, sign] =>
      isExponentMark mark && isSign sign && !t.text.toList.any isExponentMark
    | _, _ => false

/-- The transcript of what a source delivers. -/
def ofSupply (s : Supply) : Transcript :=
  match s.failure? with
  | none => ofText s.text
  | some cause =>
    let results := (Cursor.ofText s.text).results
    let known := results.takeWhile fun r => !looksBehind r.1 r.2.ahead
    if known.length = results.length then ofResults results
    else { ofResults known with ending := .error (.escaped cause) }

/-- The lexemes of the tokens. -/
def lexemes (t : Transcript) : List Lexeme := t.entries.map (·.token.toLexeme)

/-- The entry of which `left` lexemes are left from its own on; the end of the
input if none are. -/
def entryAt? (t : Transcript) (left : Nat) : Option Entry :=
  if left = 0 then t.ending.toOption else t.entries[t.entries.length - left]?

end Transcript

end Calculator
