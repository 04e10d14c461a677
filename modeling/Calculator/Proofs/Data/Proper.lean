import Calculator.Data.Datum

/-!
# Proper data

Data is proper (`Datum.IsProper`) if no record in it has a name twice and the halves in its texts
are halves. What is under a name is known after all values have been changed alike (`get?_map`) and
after one has been set (`get?_set`), which keeps a record proper (`isProper_set`).
-/

set_option autoImplicit false

namespace Calculator

/-! ## Texts with halves -/

namespace Text

/-- A text in which each half is one. -/
def HasHalves (ps : List Point) : Prop := ∀ n, Point.half n ∈ ps → Point.isHalf n = true

variable {p : Point} {ps qs : List Point}

theorem HasHalves.of_cons (h : HasHalves (p :: ps)) : HasHalves ps :=
  fun n hn => h n (List.mem_cons_of_mem p hn)

theorem HasHalves.take (h : HasHalves ps) (k : Nat) : HasHalves (ps.take k) :=
  fun n hn => h n (List.mem_of_mem_take hn)

theorem HasHalves.append (hps : HasHalves ps) (hqs : HasHalves qs) : HasHalves (ps ++ qs) :=
  fun n hn => (List.mem_append.1 hn).elim (hps n) (hqs n)

theorem hasHalves_points (s : List Char) : HasHalves (points s) := by
  intro n hn
  obtain ⟨c, -, hc⟩ := List.mem_map.1 hn
  cases hc

/-- A text that is its characters has their points. -/
theorem points_of_wholeText? {ps : List Point} {s : List Char}
    (h : wholeText? ps = some s) : ps = points s := by
  induction ps generalizing s with
  | nil =>
      cases h
      rfl
  | cons p ps ih =>
      rw [wholeText?, List.mapM_cons] at h
      obtain ⟨c, hc, h⟩ := Option.bind_eq_some_iff.1 h
      obtain ⟨rest, hrest, h⟩ := Option.bind_eq_some_iff.1 h
      cases h
      cases p with
      | half n => cases hc
      | char c' =>
          cases hc
          rw [ih hrest]
          rfl

end Text

/-! ## Fields -/

namespace Fields

variable {fields : Fields} {name n : String} {d : Datum}

theorem get?_cons (f : String × Datum) (rest : Fields) (name : String) :
    get? (f :: rest) name = if name = f.1 then some f.2 else rest.get? name := by
  unfold get?
  rw [List.lookup_cons]
  by_cases h : name = f.1
  · rw [if_pos h, beq_iff_eq.2 h]
  · rw [if_neg h, beq_eq_false_iff_ne.2 h]

theorem names_map (g : Datum → Datum) (fields : Fields) :
    names (fields.map fun f => (f.1, g f.2)) = fields.names := by
  rw [names, List.map_map]
  rfl

theorem nodup_map (g : Datum → Datum) (h : fields.names.Nodup) :
    (names (fields.map fun f => (f.1, g f.2))).Nodup := by
  rw [names_map]
  exact h

/-- What is under a name after all values have been changed alike. -/
theorem get?_map (g : Datum → Datum) (fields : Fields) (name : String) :
    get? (fields.map fun f => (f.1, g f.2)) name = (fields.get? name).map g := by
  induction fields with
  | nil => rfl
  | cons f rest ih =>
      rw [List.map_cons, get?_cons, get?_cons, ih]
      split
      · rfl
      · rfl

/-- What is under a name after a value has been set. -/
theorem get?_set (fields : Fields) (n : String) (d : Datum) (name : String) :
    (fields.set n d).get? name = if name = n then some d else fields.get? name := by
  induction fields with
  | nil => exact get?_cons (n, d) [] name
  | cons f rest ih =>
      obtain ⟨m, old⟩ := f
      rw [set]
      split
      · rename_i hm
        subst hm
        rw [get?_cons, get?_cons]
        split
        · rfl
        · rfl
      · rename_i hm
        rw [get?_cons, get?_cons, ih]
        by_cases hname : name = m
        · have hn : ¬ name = n := fun h => hm (hname.symm.trans h)
          rw [if_pos hname, if_neg hn, if_pos hname]
        · rw [if_neg hname, if_neg hname]

/-- The names after a value has been set. -/
theorem mem_names_set : name ∈ (fields.set n d).names ↔ name = n ∨ name ∈ fields.names := by
  induction fields with
  | nil => simp [set, names]
  | cons f rest ih =>
      obtain ⟨m, old⟩ := f
      rw [set]
      split
      · rename_i hm
        subst hm
        simp [names]
      · show name ∈ m :: names (set rest n d) ↔ name = n ∨ name ∈ m :: names rest
        rw [List.mem_cons, ih, List.mem_cons]
        exact or_left_comm

theorem nodup_set (h : fields.names.Nodup) : (fields.set n d).names.Nodup := by
  induction fields with
  | nil => exact List.nodup_cons.2 ⟨List.not_mem_nil, List.nodup_nil⟩
  | cons f rest ih =>
      obtain ⟨m, old⟩ := f
      obtain ⟨hm, hrest⟩ := List.nodup_cons.1 h
      rw [set]
      split
      · exact h
      · rename_i hne
        refine List.nodup_cons.2 ⟨fun hmem => ?_, ih hrest⟩
        rcases mem_names_set.1 hmem with heq | hmem
        · exact hne heq
        · exact hm hmem

end Fields

/-! ## Data -/

namespace Datum

mutual

/-- Data in which no record has a name twice and the halves in texts are halves. -/
def IsProper : Datum → Prop
  | .null | .bool _ | .number _ | .text _ => True
  | .torn ps => Text.HasHalves ps
  | .list items => AreProper items
  | .record fields => (Fields.names fields).Nodup ∧ AreProperFields fields

/-- All items are proper. -/
def AreProper : List Datum → Prop
  | [] => True
  | d :: rest => IsProper d ∧ AreProper rest

/-- All values are proper. -/
def AreProperFields : List (String × Datum) → Prop
  | [] => True
  | (_, d) :: rest => IsProper d ∧ AreProperFields rest

end

variable {fields : Fields}

theorem areProperFields_iff : AreProperFields fields ↔ ∀ f ∈ fields, f.2.IsProper := by
  induction fields with
  | nil => simp [AreProperFields]
  | cons f rest ih => simp [AreProperFields, ih]

/-- The points of a text. -/
def points? : Datum → Option (List Text.Point)
  | text s => some (Text.points s.toList)
  | torn s => some s
  | _ => none

theorem ofPoints_points (s : List Char) : ofPoints (Text.points s) = text (String.ofList s) := by
  rw [ofPoints, Text.wholeText?_points]

/-- The points of a text are those that it is made of. -/
theorem points?_ofPoints (ps : List Text.Point) : (ofPoints ps).points? = some ps := by
  unfold ofPoints
  split
  · rename_i s hs
    rw [points?, String.toList_ofList, Text.points_of_wholeText? hs]
  · rfl

theorem isProper_ofPoints {ps : List Text.Point} (h : Text.HasHalves ps) :
    (ofPoints ps).IsProper := by
  unfold ofPoints
  split
  · trivial
  · exact h

/-- Setting a proper value keeps a record proper. -/
theorem isProper_set {n : String} {d : Datum} (h : IsProper (.record fields)) (hd : d.IsProper) :
    IsProper (.record (fields.set n d)) := by
  refine ⟨Fields.nodup_set h.1, ?_⟩
  have hfields := h.2
  clear h
  induction fields with
  | nil => exact ⟨hd, trivial⟩
  | cons f rest ih =>
      rw [Fields.set]
      split
      · exact ⟨hd, hfields.2⟩
      · exact ⟨hfields.1, ih hfields.2⟩

end Datum

end Calculator
