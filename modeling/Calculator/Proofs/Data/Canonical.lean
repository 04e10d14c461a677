import Calculator.Data.Shown
import Calculator.Proofs.Data.Sorted
import Mathlib.Data.List.Nodup
import Mathlib.Data.List.Perm.Subperm

/-!
# The order of fields

Fields are alike if they are the same in some order, once the records in their values are sorted
(`Fields.Alike`). Setting a value keeps them alike (`Alike.set`), and records with such fields have
one sorted form (`Alike.sorted_eq`). Equal data in particular has one sorted form
(`sorted_eq_of_same`), so whatever is read off that form does not depend on the order in which names
first came.
-/

set_option autoImplicit false

namespace Calculator

/-! ## Fields in some order -/

namespace Fields

variable {fields fields' : Fields} {name : String} {d : Datum}

theorem before_trans (a b c : String × Datum) (hab : before a b = true) (hbc : before b c = true) :
    before a c = true :=
  decide_eq_true (String.le_trans (of_decide_eq_true hab) (of_decide_eq_true hbc))

theorem before_total (a b : String × Datum) : (before a b || before b a) = true := by
  rw [Bool.or_eq_true]
  exact (String.le_total a.1 b.1).imp decide_eq_true decide_eq_true

theorem nodup_of_names (h : fields.names.Nodup) : fields.Nodup := List.Nodup.of_map Prod.fst h

/-- Fields of one name are one field, if the names are distinct. -/
theorem eq_of_before (h : fields.names.Nodup) {a b : String × Datum} (ha : a ∈ fields)
    (hb : b ∈ fields) (hab : before a b = true) (hba : before b a = true) : a = b := by
  have hname : a.1 = b.1 := String.le_antisymm (of_decide_eq_true hab) (of_decide_eq_true hba)
  exact List.inj_on_of_nodup_map h ha hb hname

/-- **Sorting by distinct names forgets the order in which the fields were.** -/
theorem mergeSort_eq_of_perm (hperm : fields.Perm fields') (h : fields.names.Nodup) :
    fields.mergeSort before = fields'.mergeSort before := by
  have hsorted := (List.mergeSort_perm fields before).trans
    (hperm.trans (List.mergeSort_perm fields' before).symm)
  refine hsorted.eq_of_pairwise ?_ (List.pairwise_mergeSort before_trans before_total fields)
    (List.pairwise_mergeSort before_trans before_total fields')
  intro a b ha hb hab hba
  have ha : a ∈ fields := List.mem_mergeSort.1 ha
  have hb : b ∈ fields := hperm.mem_iff.2 (List.mem_mergeSort.1 hb)
  exact eq_of_before h ha hb hab hba

/-- Fields with distinct names are the same in some order if they have the same values. -/
theorem perm_of_get? (h : fields.names.Nodup) (h' : fields'.names.Nodup)
    (hget : ∀ name, fields.get? name = fields'.get? name) : fields.Perm fields' := by
  refine (List.perm_ext_iff_of_nodup (nodup_of_names h) (nodup_of_names h')).2 ?_
  rintro ⟨name, d⟩
  constructor
  · exact fun hmem => mem_of_get? ((hget name).symm.trans (get?_of_mem h hmem))
  · exact fun hmem => mem_of_get? ((hget name).trans (get?_of_mem h' hmem))

/-- Setting a value keeps fields the same in some order. -/
theorem perm_set (hperm : fields.Perm fields') (h : fields.names.Nodup) (name : String)
    (d : Datum) : (fields.set name d).Perm (fields'.set name d) := by
  have h' : fields'.names.Nodup := (hperm.map Prod.fst).nodup_iff.1 h
  refine perm_of_get? (nodup_set h) (nodup_set h') fun n => ?_
  rw [get?_set, get?_set, get?_perm hperm h]

theorem has_iff_mem_names : fields.has name = true ↔ name ∈ fields.names := by
  induction fields with
  | nil => simp [has, get?, names]
  | cons f rest ih =>
      rw [has, get?_cons]
      split
      · rename_i hname
        exact iff_of_true rfl (hname ▸ List.mem_cons_self)
      · rename_i hname
        exact ih.trans (List.mem_cons.trans (or_iff_right hname)).symm

/-- Setting a value and sorting can be done in any order. -/
theorem sortedFields_set (fields : Fields) (name : String) (d : Datum) :
    Datum.sortedFields (fields.set name d) =
      Fields.set (Datum.sortedFields fields) name d.sorted := by
  induction fields with
  | nil => rfl
  | cons f rest ih =>
      obtain ⟨n, old⟩ := f
      rw [set, Datum.sortedFields, set]
      split
      · rfl
      · rw [Datum.sortedFields, ih]

/-- The fields are the same in some order, once the records in their values are sorted. -/
def Alike (fields fields' : Fields) : Prop :=
  (Datum.sortedFields fields).Perm (Datum.sortedFields fields')

namespace Alike

theorem names_perm (h : Alike fields fields') : fields.names.Perm fields'.names := by
  have hnames := h.map Prod.fst
  change (names (Datum.sortedFields fields)).Perm (names (Datum.sortedFields fields')) at hnames
  rwa [Datum.names_sortedFields, Datum.names_sortedFields] at hnames

/-- Fields with distinct names are alike if there are as many and each one, sorted, is among the
others. -/
theorem of_subset (hnames : fields.names.Nodup) (hlength : fields.length = fields'.length)
    (h : Datum.sortedFields fields ⊆ Datum.sortedFields fields') : Alike fields fields' := by
  rw [← Datum.names_sortedFields] at hnames
  refine (List.subperm_of_subset (nodup_of_names hnames) h).perm_of_length_le (Nat.le_of_eq ?_)
  rw [Datum.sortedFields_eq_map, Datum.sortedFields_eq_map, List.length_map, List.length_map,
    hlength]

/-- Records with fields that are alike have one sorted form. -/
theorem sorted_eq (h : Alike fields fields') (hnames : fields.names.Nodup) :
    (Datum.record fields).sorted = (Datum.record fields').sorted := by
  rw [← Datum.names_sortedFields] at hnames
  exact congrArg Datum.record (mergeSort_eq_of_perm h hnames)

theorem has_eq (h : Alike fields fields') (name : String) : fields.has name = fields'.has name := by
  rw [Bool.eq_iff_iff, has_iff_mem_names, has_iff_mem_names, h.names_perm.mem_iff]

theorem set (h : Alike fields fields') (hnames : fields.names.Nodup) (name : String) (d : Datum) :
    Alike (fields.set name d) (fields'.set name d) := by
  rw [← Datum.names_sortedFields] at hnames
  rw [Alike, sortedFields_set, sortedFields_set]
  exact perm_set h hnames name d.sorted

end Alike

end Fields

namespace Datum

/-! ## Equal data -/

mutual

/-- **Equal data has one sorted form.** -/
theorem sorted_eq_of_same : ∀ {d d' : Datum}, IsProper d → Same d d' → d.sorted = d'.sorted
  | .null, _, _, h => congrArg sorted (Eq.symm h)
  | .bool _, _, _, h => congrArg sorted (Eq.symm h)
  | .number _, _, _, h => congrArg sorted (Eq.symm h)
  | .text _, _, _, h => congrArg sorted (Eq.symm h)
  | .torn _, _, _, h => congrArg sorted (Eq.symm h)
  | .list items, _, hproper, ⟨items', hd, h⟩ => by
      rw [hd]
      exact congrArg Datum.list (sortedItems_eq_of_same hproper h)
  | .record fields, _, hproper, ⟨fields', hd, hlength, h⟩ => by
      rw [hd]
      -- names are distinct and fields as many, so it is enough to find each one on the other side
      have hsubset := sortedFields_subset_of_same hproper.2 h
      exact (Fields.Alike.of_subset hproper.1 hlength hsubset).sorted_eq hproper.1

theorem sortedItems_eq_of_same : ∀ {items items' : List Datum}, AreProper items →
    SameItems items items' → sortedItems items = sortedItems items'
  | [], _, _, h => by rw [show _ = [] from h]
  | d :: rest, _, hproper, ⟨d', rest', hitems, hd, hrest⟩ => by
      rw [hitems, sortedItems, sortedItems, sorted_eq_of_same hproper.1 hd,
        sortedItems_eq_of_same hproper.2 hrest]

theorem sortedFields_subset_of_same : ∀ {fields fields' : Fields}, AreProperFields fields →
    SameFields fields fields' → sortedFields fields ⊆ sortedFields fields'
  | [], _, _, _ => List.nil_subset _
  | (name, d) :: rest, fields', hproper, ⟨⟨d', hget, hd⟩, hrest⟩ => by
      refine List.cons_subset.2 ⟨?_, sortedFields_subset_of_same hproper.2 hrest⟩
      rw [sorted_eq_of_same hproper.1 hd, sortedFields_eq_map]
      exact List.mem_map_of_mem (Fields.mem_of_get? hget)

end

/-- The fields of equal records are alike. -/
theorem alike_of_same {fields fields' : Fields} (hproper : IsProper (.record fields))
    (h : Same (.record fields) (.record fields')) : fields.Alike fields' := by
  obtain ⟨_, heq, hlength, hsame⟩ := h
  cases heq
  exact Fields.Alike.of_subset hproper.1 hlength (sortedFields_subset_of_same hproper.2 hsame)

/-! ## Integers too long to be written -/

theorem areWritableFields_iff {fields : Fields} :
    areWritableFields fields = true ↔ ∀ f ∈ fields, f.2.isWritable = true := by
  induction fields with
  | nil => simp [areWritableFields]
  | cons f rest ih => rw [areWritableFields, Bool.and_eq_true, ih, List.forall_mem_cons]

theorem areWritableFields_perm {fields fields' : Fields} (h : fields.Perm fields') :
    areWritableFields fields = areWritableFields fields' := by
  rw [Bool.eq_iff_iff, areWritableFields_iff, areWritableFields_iff]
  exact forall_congr' fun f => imp_congr_left h.mem_iff

mutual

/-- Sorting the fields of records makes no integer longer. -/
theorem isWritable_sorted : ∀ d : Datum, d.sorted.isWritable = d.isWritable
  | .null => rfl
  | .bool _ => rfl
  | .number _ => rfl
  | .text _ => rfl
  | .torn _ => rfl
  | .list items => areWritable_sorted items
  | .record fields =>
    (areWritableFields_perm (perm_sortedFields fields)).trans (areWritableFields_sorted fields)

theorem areWritable_sorted : ∀ items : List Datum,
    areWritable (sortedItems items) = areWritable items
  | [] => rfl
  | d :: rest => by
      rw [sortedItems, areWritable, isWritable_sorted d, areWritable_sorted rest, areWritable]

theorem areWritableFields_sorted : ∀ fields : Fields,
    areWritableFields (sortedFields fields) = areWritableFields fields
  | [] => rfl
  | (_, d) :: rest => by
      rw [sortedFields, areWritableFields, isWritable_sorted d, areWritableFields_sorted rest,
        areWritableFields]

end

end Datum

end Calculator
