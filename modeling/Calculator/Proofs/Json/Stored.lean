import Calculator.Proofs.Json.Doubles
import Calculator.Proofs.Json.RoundTrip

/-!
# Data as JSON holds it

JSON has no exact fractions, and it has a character in the place of the two halves of a pair. All
other data is held as it is, infinite values and NaN included (`Datum.stored`). Data is written like
its stored form (`compact_stored`), and from its line the stored form is read back (`read_sorted`),
for all proper data that fits into a line.
-/

set_option autoImplicit false

namespace Calculator

namespace Datum

mutual

/-- Data as JSON holds it: an exact fraction is its text, and both halves of a pair in a text are
the character of the pair. -/
def stored : Datum → Datum
  | .number (.ratio q) => .text (Number.ratioText q)
  | .torn ps => .ofPoints (Json.paired ps)
  | .list items => .list (storedItems items)
  | .record fields => .record (storedFields fields)
  | d => d

/-- `stored` on every item. -/
def storedItems : List Datum → List Datum
  | [] => []
  | d :: rest => d.stored :: storedItems rest

/-- `stored` on every value. -/
def storedFields : List (String × Datum) → List (String × Datum)
  | [] => []
  | (name, d) :: rest => (name, d.stored) :: storedFields rest

end

theorem storedFields_eq_map (fields : Fields) :
    storedFields fields = fields.map fun f => (f.1, f.2.stored) := by
  induction fields with
  | nil => rfl
  | cons f rest ih => rw [storedFields, ih, List.map_cons]

theorem names_storedFields (fields : Fields) :
    Fields.names (storedFields fields) = fields.names := by
  rw [storedFields_eq_map, Fields.names_map]

/-! ## Depth and order -/

theorem depth_ofPoints (ps : List Text.Point) : (ofPoints ps).depth = 0 := by
  unfold ofPoints
  split
  · rfl
  · rfl

mutual

/-- Stored data is nested as deeply. -/
theorem depth_stored : ∀ d : Datum, d.stored.depth = d.depth
  | .null => rfl
  | .bool _ => rfl
  | .number (.int _) => rfl
  | .number (.float _) => rfl
  | .number (.ratio _) => rfl
  | .text _ => rfl
  | .torn ps => depth_ofPoints (Json.paired ps)
  | .list items => congrArg (· + 1) (depthOfItems_stored items)
  | .record fields => congrArg (· + 1) (depthOfFields_stored fields)

theorem depthOfItems_stored : ∀ items : List Datum,
    depthOfItems (storedItems items) = depthOfItems items
  | [] => rfl
  | d :: rest => by
      rw [storedItems, depthOfItems, depth_stored d, depthOfItems_stored rest, depthOfItems]

theorem depthOfFields_stored : ∀ fields : Fields,
    depthOfFields (storedFields fields) = depthOfFields fields
  | [] => rfl
  | (_, d) :: rest => by
      rw [storedFields, depthOfFields, depth_stored d, depthOfFields_stored rest, depthOfFields]

end

mutual

/-- Storing data and sorting its records can be done in any order. -/
theorem stored_sorted : ∀ d : Datum, d.sorted.stored = d.stored.sorted
  | .null => rfl
  | .bool _ => rfl
  | .number (.int _) => rfl
  | .number (.float _) => rfl
  | .number (.ratio _) => rfl
  | .text _ => rfl
  | .torn ps => (sorted_ofPoints (Json.paired ps)).symm
  | .list items => congrArg Datum.list (storedItems_sorted items)
  | .record fields => by
      -- the names, by which the fields are sorted, stay the same
      have hmerge := List.map_mergeSort (r := Fields.before) (s := Fields.before)
        (f := fun f : String × Datum => (f.1, f.2.stored)) (l := sortedFields fields)
        fun _ _ _ _ => rfl
      show Datum.record (storedFields ((sortedFields fields).mergeSort Fields.before)) = _
      rw [storedFields_eq_map, hmerge, ← storedFields_eq_map, storedFields_sorted fields]
      rfl

theorem storedItems_sorted : ∀ items : List Datum,
    storedItems (sortedItems items) = sortedItems (storedItems items)
  | [] => rfl
  | d :: rest => by
      rw [sortedItems, storedItems, stored_sorted d, storedItems_sorted rest, storedItems,
        sortedItems]

theorem storedFields_sorted : ∀ fields : Fields,
    storedFields (sortedFields fields) = sortedFields (storedFields fields)
  | [] => rfl
  | (_, d) :: rest => by
      rw [sortedFields, storedFields, stored_sorted d, storedFields_sorted rest, storedFields,
        sortedFields]

end

mutual

/-- Stored data is proper if the data is. -/
theorem isProper_stored : ∀ d : Datum, IsProper d → IsProper d.stored
  | .null, _ => trivial
  | .bool _, _ => trivial
  | .number (.int _), _ => trivial
  | .number (.float _), _ => trivial
  | .number (.ratio _), _ => trivial
  | .text _, _ => trivial
  | .torn _, h => isProper_ofPoints (Json.hasHalves_paired h)
  | .list items, h => areProper_stored items h
  | .record fields, h =>
    ⟨(names_storedFields fields).symm ▸ h.1, areProperFields_stored fields h.2⟩

theorem areProper_stored : ∀ items : List Datum, AreProper items → AreProper (storedItems items)
  | [], _ => trivial
  | d :: rest, h => ⟨isProper_stored d h.1, areProper_stored rest h.2⟩

theorem areProperFields_stored : ∀ fields : Fields, AreProperFields fields →
    AreProperFields (storedFields fields)
  | [], _ => trivial
  | (_, d) :: rest, h => ⟨isProper_stored d h.1, areProperFields_stored rest h.2⟩

end

end Datum

/-! ## Fields -/

namespace Fields

/-- The fields of a record as they are read from its line: stored, and in the order of their
names. -/
def held (fields : Fields) : Fields :=
  (Datum.sortedFields (Datum.storedFields fields)).mergeSort before

variable {fields : Fields}

theorem perm_held (fields : Fields) :
    fields.held.Perm (fields.map fun f => (f.1, f.2.stored.sorted)) := by
  have hmap : Datum.sortedFields (Datum.storedFields fields) =
      fields.map fun f => (f.1, f.2.stored.sorted) := by
    rw [Datum.sortedFields_eq_map, Datum.storedFields_eq_map, List.map_map]
    rfl
  rw [← hmap]
  exact Datum.perm_sortedFields _

theorem length_held (fields : Fields) : fields.held.length = fields.length := by
  rw [(perm_held fields).length_eq, List.length_map]

theorem nodup_held (h : fields.names.Nodup) : fields.held.names.Nodup :=
  ((perm_held fields).map Prod.fst).nodup_iff.2 (nodup_map (fun d => d.stored.sorted) h)

/-- **Each value is held under its name.** -/
theorem get?_held (h : fields.names.Nodup) (name : String) :
    fields.held.get? name = (fields.get? name).map fun d => d.stored.sorted := by
  rw [← get?_map (fun d => d.stored.sorted)]
  exact get?_perm (perm_held fields).symm (nodup_map (fun d => d.stored.sorted) h)

end Fields

/-! ## Writing and reading -/

namespace Json

open Datum (stored storedItems storedFields)

theorem compact_ofPoints (ps : List Text.Point) : compact (.ofPoints ps) = pointsChars ps := by
  unfold Datum.ofPoints
  split
  · rename_i s hs
    rw [Text.points_of_wholeText? hs, pointsChars_points]
    rfl
  · rfl

mutual

/-- **Data is written like its stored form.** -/
theorem compact_stored : ∀ d : Datum, compact d.stored = compact d
  | .null => rfl
  | .bool _ => rfl
  | .number (.int _) => rfl
  | .number (.float _) => rfl
  | .number (.ratio _) => rfl
  | .text _ => rfl
  | .torn ps => (compact_ofPoints (paired ps)).trans (pointsChars_paired ps)
  | .list items => by
      rw [stored, compact, compactItems_stored items, compact]
  | .record fields => by
      rw [stored, compact, compactFields_stored fields, compact]

theorem compactItems_stored : ∀ items : List Datum,
    compactItems (storedItems items) = compactItems items
  | [] => rfl
  | [d] => compact_stored d
  | d :: e :: rest => by
      have hrest := compactItems_stored (e :: rest)
      rw [storedItems] at hrest
      rw [storedItems, storedItems, compactItems_cons_cons, compact_stored d, hrest,
        compactItems_cons_cons]

theorem compactFields_stored : ∀ fields : Fields,
    compactFields (storedFields fields) = compactFields fields
  | [] => rfl
  | [(name, d)] => by
      show stringChars name ++ ':' :: ' ' :: compact d.stored = _
      rw [compact_stored d]
      rfl
  | (name, d) :: (name', d') :: rest => by
      have hrest := compactFields_stored ((name', d') :: rest)
      rw [storedFields] at hrest
      rw [storedFields, storedFields, compactFields_cons_cons, compact_stored d, hrest,
        compactFields_cons_cons]

end

theorem legible_ofPoints {ps : List Text.Point} (h : Text.HasHalves ps) :
    Legible (.ofPoints (paired ps)) := by
  unfold Datum.ofPoints
  cases hwhole : Text.wholeText? (paired ps) with
  | some s => trivial
  | none =>
      refine ⟨hasHalves_paired h, paired_paired ps, ?_⟩
      rw [Datum.ofPoints, hwhole]

theorem legible_stored_number {n : Number} (h : n.isWritable = true) :
    Legible (stored (.number n)) := by
  cases n with
  | int n => exact legible_int h
  | float x => exact fun hfinite => readsBack_of_isFinite hfinite
  | ratio q => trivial

mutual

/-- Stored data is legible, if its integers can be written. -/
theorem legible_stored : ∀ d : Datum, d.IsProper → d.isWritable = true → Legible d.stored
  | .null, _, _ => trivial
  | .bool _, _, _ => trivial
  | .number _, _, hint => legible_stored_number hint
  | .text _, _, _ => trivial
  | .torn _, h, _ => legible_ofPoints h
  | .list items, h, hint => legibleItems_stored items h hint
  | .record fields, h, hint =>
    ⟨(Datum.names_storedFields fields).symm ▸ h.1, legibleFields_stored fields h.2 hint⟩

theorem legibleItems_stored : ∀ items : List Datum, Datum.AreProper items →
    Datum.areWritable items = true → LegibleItems (storedItems items)
  | [], _, _ => trivial
  | d :: rest, h, hint => by
      obtain ⟨hd, hrest⟩ := Bool.and_eq_true_iff.1 hint
      exact ⟨legible_stored d h.1 hd, legibleItems_stored rest h.2 hrest⟩

theorem legibleFields_stored : ∀ fields : Fields, Datum.AreProperFields fields →
    Datum.areWritableFields fields = true → LegibleFields (storedFields fields)
  | [], _, _ => trivial
  | (_, d) :: rest, h, hint => by
      obtain ⟨hd, hrest⟩ := Bool.and_eq_true_iff.1 hint
      exact ⟨legible_stored d h.1 hd, legibleFields_stored rest h.2 hrest⟩

end

/-- **From the line of data its stored form is read back**, with the fields of its records
sorted. -/
theorem read_sorted {d : Datum} (h : d.IsProper) (hint : d.isWritable = true)
    (hdepth : d.depth ≤ deepest) : Json.read (compact d.sorted) = .ok d.stored.sorted := by
  have hlegible := legible_sorted _ (legible_stored d h hint)
  have hsorted : d.stored.sorted.depth ≤ deepest := by
    rw [Datum.depth_sorted, Datum.depth_stored]
    exact hdepth
  rw [← compact_stored, Datum.stored_sorted]
  exact read_compact hlegible hsorted

end Json

end Calculator
