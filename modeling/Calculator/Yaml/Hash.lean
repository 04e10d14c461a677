import Calculator.Number.Basic

/-!
# The order of sets

The members of a set stand in the slots of a table, each in the first free slot that
its hash leads to, and are shown in the order of the slots. Numbers that are equal
have one hash: it is the residue of the exact value modulo a prime.
-/

namespace Calculator.Yaml

/-! ## Hashes -/

/-- The prime modulo which numbers are hashed. -/
def hashPrime : Nat := Nat.pow 2 61 - 1

/-- A hash with its sign. Minus one is no hash. -/
def signedHash (negative : Bool) (residue : Nat) : Int :=
  let h : Int := if negative then -residue else residue
  if h = -1 then -2 else h

/-- The hash of a number, if it depends on nothing but its value. -/
def numberHash? : Number → Option Int
  | .int n => some (signedHash (n < 0) (n.natAbs % hashPrime))
  | .float x =>
    match Decimal.decode x with
    | .finite negative m e =>
      some (signedHash negative (m * Nat.pow 2 (e % 61).toNat % hashPrime))
    | .infinite negative => some (if negative then -314159 else 314159)
    | .notANumber => none
  | .ratio _ => none

/-- A hash as a machine word. -/
def wordOf (h : Int) : Nat := (h % Int.pow 2 64).toNat

/-! ## Slots -/

/-- The number of slots for `n` members. -/
def slotCount (n : Nat) : Nat := if n * 5 < 21 then 8 else Nat.pow 2 (Nat.log2 (2 * n) + 1)

/-- How many slots behind one are tried before the next jump. -/
def reach : Nat := 9

/-- The first free slot, looked for from slot `i` on. The first argument bounds the
number of jumps; `rest` is what is left of the hash to decide where they go. -/
def freeSlot? {α : Type} (slots : Array (Option α)) : Nat → Nat → Nat → Option Nat
  | 0, _, _ => none
  | jumps + 1, rest, i =>
    let last := if i + reach < slots.size then i + reach else i
    match (List.range' i (last + 1 - i)).find? fun j => (slots[j]?.join).isNone with
    | some j => some j
    | none =>
      let rest := rest / 32
      freeSlot? slots jumps rest ((i * 5 + 1 + rest) % slots.size)

/-- Puts a member with a hash into its slot. -/
def place {α : Type} (slots : Array (Option α)) (entry : Int × α) : Array (Option α) :=
  let word := wordOf entry.1
  match freeSlot? slots (slots.size + 64) word (word % slots.size) with
  | some j => slots.setIfInBounds j (some entry.2)
  | none => slots

/-- Members with their hashes, in the order of their slots. -/
def slotOrder {α : Type} (entries : List (Int × α)) : List α :=
  let slots := entries.foldl place (Array.replicate (slotCount entries.length) none)
  slots.toList.filterMap id

end Calculator.Yaml
