import Calculator.Yaml.Value

/-!
# Values in the notation of messages

A value has a text in messages if and only if all integers in it can be written
(`Value.exists_written_iff`); else writing it fails with the failure of integers that have too many
digits (`Value.written_eq_error`).
-/

set_option autoImplicit false

namespace Calculator.Yaml.Value

mutual

/-- The integers in a value, those in its keys included. -/
def integers : Value → List Int
  | int n => [n]
  | list items => integersOfItems items
  | set items => integersOfItems items
  | pairs entries => integersOfEntries entries
  | mapping entries => integersOfEntries entries
  | _ => []

/-- The integers in items. -/
def integersOfItems : List Value → List Int
  | [] => []
  | v :: rest => v.integers ++ integersOfItems rest

/-- The integers in keys and values. -/
def integersOfEntries : List (Value × Value) → List Int
  | [] => []
  | (k, v) :: rest => k.integers ++ (v.integers ++ integersOfEntries rest)

end

/-- All integers in the value have few enough digits to be written. -/
def IsWritable (v : Value) : Prop := ∀ n ∈ v.integers, (Number.int n).isWritable = true

theorem integersOfItems_eq_flatMap (items : List Value) :
    integersOfItems items = items.flatMap integers := by
  induction items with
  | nil => rfl
  | cons v rest ih => rw [integersOfItems, ih, List.flatMap_cons]

/-- A list can be written if its items can. -/
theorem isWritable_list_iff {items : List Value} :
    (list items).IsWritable ↔ ∀ v ∈ items, v.IsWritable := by
  rw [IsWritable, integers, integersOfItems_eq_flatMap]
  simp only [List.mem_flatMap, IsWritable]
  exact ⟨fun h v hv n hn => h n ⟨v, hv, hn⟩, fun h n ⟨v, hv, hn⟩ => h v hv n hn⟩

/-! ## Results of writing -/

/-- What comes of writing something with the given integers. -/
inductive Writes (ns : List Int) : Except Failure String → Prop where
  | text {s} : (∀ n ∈ ns, (Number.int n).isWritable = true) → Writes ns (.ok s)
  | tooLong {n} : n ∈ ns → (Number.int n).isWritable = false → Writes ns (.error .digitsWritten)

theorem Writes.plain (s : String) : Writes [] (.ok s) := .text (List.forall_mem_nil _)

theorem Writes.map {ns : List Int} {r : Except Failure String} (h : Writes ns r)
    (f : String → String) : Writes ns (f <$> r) := by
  cases h with
  | text hall => exact .text hall
  | tooLong hn hlong => exact .tooLong hn hlong

/-- One thing is written behind another. -/
theorem Writes.bind {ns ms : List Int} {r : Except Failure String}
    {f : String → Except Failure String} (h : Writes ns r) (h' : ∀ s, Writes ms (f s)) :
    Writes (ns ++ ms) (r >>= f) := by
  cases h with
  | tooLong hn hlong => exact .tooLong (List.mem_append_left ms hn) hlong
  | @text s hall =>
      show Writes (ns ++ ms) (f s)
      have hrest := h' s
      generalize f s = r at hrest ⊢
      cases hrest with
      | tooLong hn hlong => exact .tooLong (List.mem_append_right ns hn) hlong
      | text hall' => exact .text (List.forall_mem_append.2 ⟨hall, hall'⟩)

mutual

/-- What comes of writing a value depends on its integers. -/
theorem writes_written : ∀ v : Value, Writes v.integers v.written
  | .null => .plain _
  | .bool true => .plain _
  | .bool false => .plain _
  | .int n => by
      rw [integers, written]
      split
      · rename_i hwritable
        exact .text (List.forall_mem_singleton.2 hwritable)
      · rename_i hlong
        exact .tooLong List.mem_cons_self (Bool.eq_false_iff.2 hlong)
  | .float _ => .plain _
  | .text _ => .plain _
  | .torn _ => .plain _
  | .bytes _ => .plain _
  | .moment _ => .plain _
  | .list items => (writes_writtenItems items).map _
  | .pairs entries => (writes_writtenPairs entries).map _
  | .mapping entries => (writes_writtenEntries entries).map _
  | .set [] => .plain _
  | .set (v :: rest) => (writes_writtenItems (v :: rest)).map _
  | .loop true => .plain _
  | .loop false => .plain _

theorem writes_writtenItems : ∀ items : List Value,
    Writes (integersOfItems items) (writtenItems items)
  | [] => .plain _
  | [v] => by
      rw [integersOfItems, integersOfItems, List.append_nil]
      exact writes_written v
  | v :: w :: rest =>
      (writes_written v).bind fun _ => (writes_writtenItems (w :: rest)).map _

theorem writes_writtenPairs : ∀ entries : List (Value × Value),
    Writes (integersOfEntries entries) (writtenPairs entries)
  | [] => .plain _
  | (k, v) :: rest => (writes_written k).bind fun _ =>
      (writes_written v).bind fun _ => (writes_writtenPairs rest).map _

theorem writes_writtenEntries : ∀ entries : List (Value × Value),
    Writes (integersOfEntries entries) (writtenEntries entries)
  | [] => .plain _
  | (k, v) :: rest => (writes_written k).bind fun _ =>
      (writes_written v).bind fun _ => (writes_writtenEntries rest).map _

end

/-- **A value has a text in messages if all integers in it can be written.** -/
theorem exists_written_iff {v : Value} : (∃ s, v.written = .ok s) ↔ v.IsWritable := by
  have hwrites := writes_written v
  generalize v.written = r at hwrites
  cases hwrites with
  | @text s hall => exact ⟨fun _ => hall, fun _ => ⟨s, rfl⟩⟩
  | tooLong hn hlong =>
      refine ⟨fun ⟨s, hs⟩ => (nomatch hs), fun hall => ?_⟩
      cases hlong.symm.trans (hall _ hn)

/-- Otherwise one of the integers has too many digits. -/
theorem written_eq_error {v : Value} (h : ¬ v.IsWritable) : v.written = .error .digitsWritten := by
  have hwrites := writes_written v
  generalize v.written = r at hwrites
  cases hwrites with
  | text hall => exact absurd hall h
  | tooLong hn hlong => rfl

end Calculator.Yaml.Value
