/-!
# Similar names

Which known names resemble one that is not known. Two texts are compared by their
common blocks: a longest run of characters that both contain, the leftmost one,
and then the common blocks before and behind it. They are alike if the blocks
make up at least three fifths of their characters.
-/

namespace Calculator.Command

/-- A run of characters that two texts contain: where it starts in each, and its
length. -/
structure Block where
  left : Nat
  right : Nat
  length : Nat
deriving DecidableEq, Repr

/-- The length of the longest common beginning. -/
def commonStart : List Char → List Char → Nat
  | a :: s, b :: t => if a = b then commonStart s t + 1 else 0
  | _, _ => 0

/-- For each pair of positions, leftmost first, the run that starts there. -/
def blocks (s t : List Char) : List Block :=
  (List.range s.length).flatMap fun i =>
    (List.range t.length).map fun j => ⟨i, j, commonStart (s.drop i) (t.drop j)⟩

/-- The first of the longest runs. -/
def longestBlock (s t : List Char) : Block :=
  (blocks s t).foldl (fun best b => if best.length < b.length then b else best) ⟨0, 0, 0⟩

/-- The number of characters in common blocks. The first argument bounds the number
of blocks inside one another. -/
def commonChars : Nat → List Char → List Char → Nat
  | 0, _, _ => 0
  | fuel + 1, s, t =>
    let b := longestBlock s t
    if b.length = 0 then 0
    else
      b.length + commonChars fuel (s.take b.left) (t.take b.right) +
        commonChars fuel (s.drop (b.left + b.length)) (t.drop (b.right + b.length))

/-- Two texts with the number of characters they share. -/
structure Likeness where
  name : String
  shared : Nat
  total : Nat
deriving DecidableEq, Repr

namespace Likeness

/-- The likeness of a name to a wanted one. Where the lengths alone keep two texts
from being alike, nothing is compared. -/
def ofNames (wanted name : String) : Likeness :=
  let total := name.length + wanted.length
  let shared :=
    if 10 * min name.length wanted.length < 3 * total then 0
    else commonChars (name.length + 1) name.toList wanted.toList
  ⟨name, shared, total⟩

/-- Whether the shared characters make up three fifths of all. -/
def isClose (l : Likeness) : Bool := 3 * l.total ≤ 10 * l.shared

/-- The order by likeness, best first, and among equals by name, last first. -/
def before (a b : Likeness) : Bool :=
  let x := a.shared * b.total
  let y := b.shared * a.total
  y < x || (x == y && b.name ≤ a.name)

end Likeness

/-- The most names that are suggested. -/
def mostSuggestions : Nat := 3

/-- The known names that are most like a wanted one, in the order of names. -/
def similar (wanted : String) (known : List String) : List String :=
  let close := (known.map (Likeness.ofNames wanted)).filter Likeness.isClose
  (((close.mergeSort Likeness.before).take mostSuggestions).map (·.name)).mergeSort (· ≤ ·)

end Calculator.Command
