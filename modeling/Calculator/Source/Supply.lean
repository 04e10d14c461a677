import Calculator.Failure
import Calculator.Text.Lines
import Calculator.Text.Utf8

/-!
# Supplies

What a source delivers. A source that comes from a file or a stream is UTF-8, and
each of the three line ends of text files is read as a line feed. It can be taken
as a whole, by `sourceOfBytes`, or block by block, by `Supply.ofBytes`: then the
characters of a block are delivered before the next block is looked at, so that
those before an ill-formed block can be used although the source is no text.
-/

namespace Calculator

/-- The text of a source given as bytes. -/
def sourceOfBytes (bytes : List UInt8) : Except Failure (List Char) :=
  match Text.Utf8.decode? bytes with
  | some s => .ok (Text.unifyBreaks s)
  | none => .error (.notUtf8 (Text.Utf8.complaint bytes))

/-- The characters that a source delivers one after another, and the failure behind
them, if the source does not end there. -/
structure Supply where
  text : List Char
  failure? : Option Failure
deriving DecidableEq, Repr

namespace Supply

/-- The supply of a text, which is all there is. -/
def ofText (s : List Char) : Supply := ⟨s, none⟩

/-- The number of bytes in a block. -/
def blockSize : Nat := 8192

/-- Bytes in blocks, the last of which may be shorter. The first argument bounds the
number of blocks. -/
def blocksWithin : Nat → List UInt8 → List (List UInt8)
  | 0, _ => []
  | _ + 1, [] => []
  | n + 1, bytes => bytes.take blockSize :: blocksWithin n (bytes.drop blockSize)

/-- Bytes in blocks. -/
def blocks (bytes : List UInt8) : List (List UInt8) :=
  blocksWithin (bytes.length / blockSize + 1) bytes

/-- The characters of blocks up to an ill-formed one, where `held` are the bytes of a
character that the block before has broken off. -/
def deliver (held : List UInt8) : List (List UInt8) → List Char × Option Failure
  | [] => if held = [] then ([], none) else ([], some (.notUtf8 (Text.Utf8.complaint held)))
  | block :: rest =>
    match Text.Utf8.decodeFront? (held ++ block) with
    | some (s, held) =>
      let (t, failure?) := deliver held rest
      (s ++ t, failure?)
    | none => ([], some (.notUtf8 (Text.Utf8.complaint (held ++ block))))

/-- The text without a carriage return at its end. Whether that is a line end of its
own is not known before the next character. -/
def withoutOpenBreak (s : List Char) : List Char :=
  if s.getLast? = some '\r' then s.dropLast else s

/-- What a source given as bytes delivers. -/
def ofBytes (bytes : List UInt8) : Supply :=
  match deliver [] (blocks bytes) with
  | (s, none) => ⟨Text.unifyBreaks s, none⟩
  | (s, some failure) => ⟨Text.unifyBreaks (withoutOpenBreak s), some failure⟩

/-- The lines that are delivered whole. Without a failure the last one needs no line
feed behind it. -/
def lines (s : Supply) : List (List Char) :=
  match s.failure? with
  | none => Text.feedLines s.text
  | some _ => Text.feedLines (s.text.reverse.dropWhile (· ≠ '\n')).reverse

end Supply

end Calculator
