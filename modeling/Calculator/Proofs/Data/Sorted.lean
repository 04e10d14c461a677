import Calculator.Proofs.Data.Proper

/-!
# Sorted data

Records are equal if they have the same values under the same names; the order of their fields
does not count (`Datum.Same`). Proper data are the same as their sorted form (`same_sorted`), which
is nested as deeply (`depth_sorted`).
-/

set_option autoImplicit false

namespace Calculator

/-! ## Fields by name -/

namespace Fields

variable {fields fields' : Fields} {name : String} {d : Datum}

theorem mem_of_get? (h : fields.get? name = some d) : (name, d) ∈ fields := by
  obtain ⟨before, after, rfl, -⟩ := List.lookup_eq_some_iff.1 h
  exact List.mem_append_right before List.mem_cons_self

/-- Of fields with distinct names each is found. -/
theorem get?_of_mem (hnames : fields.names.Nodup) (h : (name, d) ∈ fields) :
    fields.get? name = some d := by
  obtain ⟨before, after, rfl⟩ := List.append_of_mem h
  refine List.lookup_eq_some_iff.2 ⟨before, after, rfl, fun f hf => bne_iff_ne.2 ?_⟩
  rintro rfl
  -- a field of the same name further to the front would make the name come twice
  rw [names, List.map_append, List.nodup_append] at hnames
  exact hnames.2.2 f.1 (List.mem_map_of_mem hf) f.1 List.mem_cons_self rfl

/-- Moving fields does not change what is under a name, if the names are distinct. -/
theorem get?_perm (h : fields.Perm fields') (hnames : fields.names.Nodup) :
    fields'.get? name = fields.get? name := by
  have hnames' : fields'.names.Nodup := (h.map Prod.fst).nodup hnames
  cases hd : fields.get? name with
  | some d => exact get?_of_mem hnames' (h.mem_iff.1 (mem_of_get? hd))
  | none =>
      cases hd' : fields'.get? name with
      | none => rfl
      | some d =>
          rw [get?_of_mem hnames (h.mem_iff.2 (mem_of_get? hd'))] at hd
          cases hd

end Fields

namespace Datum

/-! ## Data that can be stored -/

mutual

/-- Data of the kinds that a log can hold as they are: null, truth values, integers, finite
doubles, texts of characters, lists of such data, and records of such data with distinct names. -/
def Storable : Datum → Prop
  | .null | .bool _ | .text _ | .number (.int _) => True
  | .number (.float x) => x.isFinite
  | .number (.ratio _) | .torn _ => False
  | .list items => StorableItems items
  | .record fields => (Fields.names fields).Nodup ∧ StorableFields fields

/-- All items can be stored. -/
def StorableItems : List Datum → Prop
  | [] => True
  | d :: rest => Storable d ∧ StorableItems rest

/-- All values can be stored. -/
def StorableFields : List (String × Datum) → Prop
  | [] => True
  | (_, d) :: rest => Storable d ∧ StorableFields rest

end

mutual

/-- Data that can be stored is proper. -/
theorem isProper_of_storable : ∀ d : Datum, Storable d → IsProper d
  | .null, _ => trivial
  | .bool _, _ => trivial
  | .number _, _ => trivial
  | .text _, _ => trivial
  | .torn _, h => absurd h id
  | .list items, h => areProper_of_storable items h
  | .record fields, h => ⟨h.1, areProperFields_of_storable fields h.2⟩

theorem areProper_of_storable : ∀ items : List Datum, StorableItems items → AreProper items
  | [], _ => trivial
  | d :: rest, h => ⟨isProper_of_storable d h.1, areProper_of_storable rest h.2⟩

theorem areProperFields_of_storable : ∀ fields : Fields, StorableFields fields →
    AreProperFields fields
  | [], _ => trivial
  | (_, d) :: rest, h => ⟨isProper_of_storable d h.1, areProperFields_of_storable rest h.2⟩

end

mutual

/-- The doubles in data. -/
def floats : Datum → List Float
  | .number (.float x) => [x]
  | .list items => floatsOfItems items
  | .record fields => floatsOfFields fields
  | _ => []

/-- The doubles in items. -/
def floatsOfItems : List Datum → List Float
  | [] => []
  | d :: rest => floats d ++ floatsOfItems rest

/-- The doubles in values. -/
def floatsOfFields : List (String × Datum) → List Float
  | [] => []
  | (_, d) :: rest => floats d ++ floatsOfFields rest

end

/-! ## Equal data -/

mutual

/-- Whether data are equal. Lists are equal item by item. Records are equal if they have as many
fields and what is under each name is equal. -/
def Same : Datum → Datum → Prop
  | .list items, d => ∃ items', d = .list items' ∧ SameItems items items'
  | .record fields, d =>
    ∃ fields' : Fields, d = .record fields' ∧ fields.length = fields'.length ∧
      SameFields fields fields'
  | d, d' => d' = d

/-- Whether lists have equal items, in order. -/
def SameItems : List Datum → List Datum → Prop
  | [], items => items = []
  | d :: rest, items => ∃ d' rest', items = d' :: rest' ∧ Same d d' ∧ SameItems rest rest'

/-- Whether each of some fields is equal to what is under its name elsewhere. -/
def SameFields : List (String × Datum) → Fields → Prop
  | [], _ => True
  | (name, d) :: rest, fields => (∃ d', fields.get? name = some d' ∧ Same d d') ∧
    SameFields rest fields

end

theorem sorted_ofPoints (ps : List Text.Point) : (ofPoints ps).sorted = ofPoints ps := by
  unfold ofPoints
  split
  · rfl
  · rfl

theorem sortedFields_eq_map (fields : Fields) :
    sortedFields fields = fields.map fun f => (f.1, f.2.sorted) := by
  induction fields with
  | nil => rfl
  | cons f rest ih => rw [sortedFields, ih, List.map_cons]

theorem names_sortedFields (fields : Fields) :
    Fields.names (sortedFields fields) = fields.names := by
  rw [sortedFields_eq_map, Fields.names_map]

/-- The sorted fields of a record are its fields in another order. -/
theorem perm_sortedFields (fields : Fields) :
    ((sortedFields fields).mergeSort Fields.before).Perm (sortedFields fields) :=
  List.mergeSort_perm _ _

theorem get?_sorted {fields : Fields} {name : String} {d : Datum} (hnames : fields.names.Nodup)
    (h : (name, d) ∈ fields) :
    Fields.get? ((sortedFields fields).mergeSort Fields.before) name = some d.sorted := by
  have hsorted : (Fields.names (sortedFields fields)).Nodup :=
    (names_sortedFields fields).symm ▸ hnames
  rw [Fields.get?_perm (perm_sortedFields fields).symm hsorted]
  refine Fields.get?_of_mem hsorted ?_
  rw [sortedFields_eq_map]
  exact List.mem_map_of_mem h

mutual

/-- **Sorting the fields of records leaves data the same.** -/
theorem same_sorted : ∀ d : Datum, IsProper d → Same d d.sorted
  | .null, _ => rfl
  | .bool _, _ => rfl
  | .number _, _ => rfl
  | .text _, _ => rfl
  | .torn _, _ => rfl
  | .list items, h => ⟨_, rfl, sameItems_sorted items h⟩
  | .record fields, h => by
      have hlength : fields.length = ((sortedFields fields).mergeSort Fields.before).length := by
        rw [(perm_sortedFields fields).length_eq, sortedFields_eq_map, List.length_map]
      have hsame := sameFields_sorted fields h.2 fun f hf => get?_sorted h.1 hf
      exact ⟨_, rfl, hlength, hsame⟩

theorem sameItems_sorted : ∀ items : List Datum, AreProper items →
    SameItems items (sortedItems items)
  | [], _ => rfl
  | d :: rest, h => ⟨_, _, rfl, same_sorted d h.1, sameItems_sorted rest h.2⟩

theorem sameFields_sorted : ∀ (fields : Fields) {found : Fields}, AreProperFields fields →
    (∀ f ∈ fields, found.get? f.1 = some f.2.sorted) → SameFields fields found
  | [], _, _, _ => trivial
  | (_, d) :: rest, _, h, hfound =>
    ⟨⟨_, hfound _ List.mem_cons_self, same_sorted d h.1⟩,
      sameFields_sorted rest h.2 fun f hf => hfound f (List.mem_cons_of_mem _ hf)⟩

end

/-! ## Depth -/

theorem depthOfFields_le_iff {fields : Fields} {n : Nat} :
    depthOfFields fields ≤ n ↔ ∀ f ∈ fields, f.2.depth ≤ n := by
  induction fields with
  | nil => simp [depthOfFields]
  | cons f rest ih => rw [depthOfFields, Nat.max_le, ih, List.forall_mem_cons]

theorem depthOfFields_perm {fields fields' : Fields} (h : fields.Perm fields') :
    depthOfFields fields = depthOfFields fields' := by
  apply Nat.le_antisymm
  · exact depthOfFields_le_iff.2 fun f hf =>
      depthOfFields_le_iff.1 (Nat.le_refl _) f (h.mem_iff.1 hf)
  · exact depthOfFields_le_iff.2 fun f hf =>
      depthOfFields_le_iff.1 (Nat.le_refl _) f (h.mem_iff.2 hf)

mutual

/-- Sorting the fields of records nests nothing more deeply. -/
theorem depth_sorted : ∀ d : Datum, d.sorted.depth = d.depth
  | .null => rfl
  | .bool _ => rfl
  | .number _ => rfl
  | .text _ => rfl
  | .torn _ => rfl
  | .list items => congrArg (· + 1) (depthOfItems_sorted items)
  | .record fields => congrArg (· + 1)
      ((depthOfFields_perm (perm_sortedFields fields)).trans (depthOfFields_sorted fields))

theorem depthOfItems_sorted : ∀ items : List Datum,
    depthOfItems (sortedItems items) = depthOfItems items
  | [] => rfl
  | d :: rest => by
      rw [sortedItems, depthOfItems, depth_sorted d, depthOfItems_sorted rest, depthOfItems]

theorem depthOfFields_sorted : ∀ fields : Fields,
    depthOfFields (sortedFields fields) = depthOfFields fields
  | [] => rfl
  | (_, d) :: rest => by
      rw [sortedFields, depthOfFields, depth_sorted d, depthOfFields_sorted rest, depthOfFields]

end

end Datum

end Calculator
