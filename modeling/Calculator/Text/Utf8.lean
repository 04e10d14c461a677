import Calculator.Text.Hex

/-!
# UTF-8

Characters as bytes and back. `decodeParts` reads bytes into characters and
ill-formed parts, where an ill-formed part is a maximal initial segment of a
character's bytes, or a single byte that starts none. `decode?` accepts
well-formed bytes only; `decodeLossy` puts a replacement character for each
ill-formed part, and `complaint` words where the first one is.
-/

namespace Calculator.Text.Utf8

/-- The bytes of a text. -/
def encode (s : List Char) : List UInt8 := s.flatMap String.utf8EncodeChar

/-- The shape of a character's bytes after its first: how many follow, the range
of the first of them, and the bits that the first byte brings. -/
structure Lead where
  following : Nat
  low : Nat
  high : Nat
  bits : Nat

/-- What a first byte announces, if it can start a character. -/
def lead? (b : Nat) : Option Lead :=
  if b < 0x80 then some ⟨0, 0, 0, b⟩
  else if b < 0xC2 then none
  else if b < 0xE0 then some ⟨1, 0x80, 0xBF, b - 0xC0⟩
  else if b = 0xE0 then some ⟨2, 0xA0, 0xBF, 0⟩
  else if b = 0xED then some ⟨2, 0x80, 0x9F, 0xD⟩
  else if b < 0xF0 then some ⟨2, 0x80, 0xBF, b - 0xE0⟩
  else if b = 0xF0 then some ⟨3, 0x90, 0xBF, 0⟩
  else if b < 0xF4 then some ⟨3, 0x80, 0xBF, b - 0xF0⟩
  else if b = 0xF4 then some ⟨3, 0x80, 0x8F, 4⟩
  else none

/-- How a run of following bytes ended. -/
inductive Ending where
  | complete (code : Nat)
  | broken
  | truncated
deriving DecidableEq, Repr

/-- Reads `following` more bytes, the first in the given range and the others
continuation bytes, onto the bits read so far. -/
def follow : Nat → Nat → Nat → Nat → List UInt8 → Ending × List UInt8
  | 0, _, _, code, bytes => (.complete code, bytes)
  | _ + 1, _, _, _, [] => (.truncated, [])
  | n + 1, low, high, code, b :: bytes =>
    if low ≤ b.toNat ∧ b.toNat ≤ high then
      follow n 0x80 0xBF (code * 64 + (b.toNat - 0x80)) bytes
    else (.broken, b :: bytes)

/-- Following bytes are taken from the front. -/
theorem length_follow_le (n low high code : Nat) (bytes : List UInt8) :
    (follow n low high code bytes).2.length ≤ bytes.length := by
  induction bytes generalizing n low high code with
  | nil => cases n <;> simp [follow]
  | cons b bytes ih =>
    cases n with
    | zero => simp [follow]
    | succ n =>
      simp only [follow]
      split
      · exact Nat.le_succ_of_le (ih ..)
      · simp

/-- One character or ill-formed part, and the bytes after it. -/
def step (b : UInt8) (bytes : List UInt8) : Ending × List UInt8 :=
  match lead? b.toNat with
  | none => (.broken, bytes)
  | some lead => follow lead.following lead.low lead.high lead.bits bytes

theorem length_step_le (b : UInt8) (bytes : List UInt8) :
    (step b bytes).2.length ≤ bytes.length := by
  unfold step
  split
  · exact Nat.le_refl _
  · exact length_follow_le ..

/-- The characters and ill-formed parts of a sequence of bytes. -/
def decodeParts : List UInt8 → List Ending
  | [] => []
  | b :: bytes =>
    (step b bytes).1 :: decodeParts (step b bytes).2
termination_by bytes => bytes.length
decreasing_by exact Nat.lt_succ_of_le (length_step_le b bytes)

/-! ## Flaws -/

/-- The first ill-formed part of bytes: where it starts, and its bytes. -/
structure Flaw where
  position : Nat
  part : List UInt8
  ending : Ending
deriving DecidableEq, Repr

/-- The first ill-formed part of bytes that start at a position. -/
def flawFrom? (position : Nat) : List UInt8 → Option Flaw
  | [] => none
  | b :: bytes =>
    let size := bytes.length + 1 - (step b bytes).2.length
    match (step b bytes).1 with
    | .complete _ => flawFrom? (position + size) (step b bytes).2
    | ending => some ⟨position, (b :: bytes).take size, ending⟩
termination_by bytes => bytes.length
decreasing_by exact Nat.lt_succ_of_le (length_step_le b bytes)

/-- What is wrong with a part. -/
def Flaw.reason (f : Flaw) : String :=
  match f.ending with
  | .truncated => "unexpected end of data"
  | _ =>
    if (f.part.head?.bind fun b => lead? b.toNat).isSome then "invalid continuation byte"
    else "invalid start byte"

/-- The wording of a flaw. -/
def Flaw.message (f : Flaw) : String :=
  let place := match f.part with
    | [b] => s!"byte 0x{String.ofList (hexPadded 2 b.toNat)} in position {f.position}"
    | part => s!"bytes in position {f.position}-{f.position + part.length - 1}"
  s!"'utf-8' codec can't decode {place}: {f.reason}"

/-- The complaint about bytes that are not all well-formed. -/
def complaint (bytes : List UInt8) : String := ((flawFrom? 0 bytes).map Flaw.message).getD ""

/-! ## Texts -/

/-- The character of a complete part. -/
def Ending.char? : Ending → Option Char
  | .complete code => some (Char.ofNat code)
  | _ => none

/-- The character shown for a part, the replacement character if it is
ill-formed. -/
def Ending.shown (e : Ending) : Char := e.char?.getD '\uFFFD'

/-- The text of well-formed bytes. -/
def decode? (bytes : List UInt8) : Option (List Char) :=
  (decodeParts bytes).mapM Ending.char?

/-- The text of bytes that are well-formed up to a character broken off at their end,
and the bytes of that character. -/
def decodeFront? (bytes : List UInt8) : Option (List Char × List UInt8) :=
  match flawFrom? 0 bytes with
  | none => (decode? bytes).map (·, [])
  | some ⟨position, part, .truncated⟩ => (decode? (bytes.take position)).map (·, part)
  | some _ => none

/-- The text of any bytes, with a replacement character for each ill-formed
part. -/
def decodeLossy (bytes : List UInt8) : List Char :=
  (decodeParts bytes).map Ending.shown

end Calculator.Text.Utf8
