import Calculator.Data.Shown
import Calculator.Proofs.Data.Sorted
import Calculator.Proofs.Json.Characters
import Calculator.Proofs.Json.Halves
import Calculator.Proofs.Json.Layout
import Calculator.Proofs.Number.Packing

/-!
# JSON round trip

Data that has been written in any layout is read back as it was (`read_data`), if it is legible: its
integers are short enough to be written, its finite doubles read back one by one, halves of pairs are
apart in its texts, and no record has a name twice. One line is such a layout (`read_compact`).

The reader is followed along the writer: where an item or a field ends, the reader has come to the
blanks before the comma or bracket behind it, with enough fuel (`size`) and levels for what comes
next.
-/

set_option autoImplicit false

namespace Calculator.Json

open Text (IsPlain)

/-! ## Legible data -/

mutual

/-- Data that is read back when it has been written: numbers and texts are, and no two fields of a
record have one name. -/
def Legible : Datum → Prop
  | .null | .bool _ | .text _ => True
  | .torn ps => Text.HasHalves ps ∧ paired ps = ps ∧ Datum.ofPoints ps = .torn ps
  | .number (.int n) => n.natAbs < Number.leastUnwritable
  | .number (.float x) => x.isFinite → ReadsBack x
  | .number (.ratio _) => False
  | .list items => LegibleItems items
  | .record fields => (Fields.names fields).Nodup ∧ LegibleFields fields

/-- All items are legible. -/
def LegibleItems : List Datum → Prop
  | [] => True
  | d :: rest => Legible d ∧ LegibleItems rest

/-- All values are legible. -/
def LegibleFields : List (String × Datum) → Prop
  | [] => True
  | (_, d) :: rest => Legible d ∧ LegibleFields rest

end

/-! ## Numbers -/

/-- Numbers that are written with digits and read back. -/
def HasDigits : Number → Prop
  | .int n => n.natAbs < Number.leastUnwritable
  | .float x => x.isFinite ∧ ReadsBack x
  | .ratio _ => False

/-- A legible number has digits, or it is a double that is not finite. -/
theorem legible_number_cases {n : Number} (h : Legible (.number n)) :
    HasDigits n ∨ ∃ x, n = .float x ∧ x.isFinite = false := by
  cases n with
  | int n => exact .inl h
  | ratio q => exact absurd h id
  | float x =>
      cases hfinite : x.isFinite with
      | true => exact .inl ⟨hfinite, h hfinite⟩
      | false => exact .inr ⟨x, rfl, hfinite⟩

/-- A number with digits is read from its own text, with nothing left. -/
theorem takeNumber_numberChars {n : Number} (h : HasDigits n) :
    takeNumber (numberChars n) = .ok (n, []) := by
  cases n with
  | int n => exact takeNumber_int h
  | float x => exact takeNumber_float h.1 h.2
  | ratio q => exact absurd h id

theorem isNumeric_numberChars {n : Number} (h : HasDigits n) :
    ∀ c ∈ numberChars n, isNumeric c = true := by
  cases n with
  | int n => exact isNumeric_toString n
  | float x => exact isNumeric_floatChars h.1 h.2
  | ratio q => exact absurd h id

/-- The text of a number with digits starts with a character of numbers. -/
theorem numberChars_eq_cons {n : Number} (h : HasDigits n) :
    ∃ c s, numberChars n = c :: s ∧ isNumeric c = true := by
  have hread := takeNumber_numberChars h
  cases hs : numberChars n with
  | nil =>
      rw [hs] at hread
      cases hread
  | cons c s => exact ⟨c, s, rfl, isNumeric_numberChars h c (hs ▸ List.mem_cons_self)⟩

/-- A double that is not finite is written as a word. -/
theorem floatChars_eq_cons {x : Float} (h : x.isFinite = false) :
    ∃ c s, floatChars x = c :: s ∧ isBlank c = false ∧ c ≠ ']' := by
  rcases eq_ofUnpacked_of_not_finite h with rfl | ⟨s, rfl⟩
  · exact ⟨_, _, rfl, rfl, by decide⟩
  · cases s with
    | positive => exact ⟨_, _, rfl, rfl, by decide⟩
    | negative => exact ⟨_, _, rfl, rfl, by decide⟩

/-! ## Fuel -/

mutual

/-- How much fuel the reader takes for data. -/
def size : Datum → Nat
  | .list items => sizeOfItems items + 1
  | .record fields => sizeOfFields fields + 1
  | _ => 1

/-- How much fuel the reader takes for items. -/
def sizeOfItems : List Datum → Nat
  | [] => 0
  | d :: rest => size d + sizeOfItems rest + 1

/-- How much fuel the reader takes for fields. -/
def sizeOfFields : Fields → Nat
  | [] => 0
  | (_, d) :: rest => size d + sizeOfFields rest + 1

end

/-! ## The front of data -/

variable {l : Layout} {k : Nat}

/-- Legible data starts with a character that neither is a blank nor closes a list. -/
theorem data_eq_cons {d : Datum} (h : Legible d) :
    ∃ c s, l.data k d = c :: s ∧ isBlank c = false ∧ c ≠ ']' := by
  cases d with
  | null => exact ⟨_, _, rfl, rfl, by decide⟩
  | bool b => cases b <;> exact ⟨_, _, rfl, rfl, by decide⟩
  | text s => exact ⟨_, _, rfl, rfl, by decide⟩
  | torn ps => exact ⟨_, _, rfl, rfl, by decide⟩
  | list items => cases items <;> exact ⟨_, _, rfl, rfl, by decide⟩
  | record fields => cases fields <;> exact ⟨_, _, rfl, rfl, by decide⟩
  | number n =>
      rcases legible_number_cases h with hdigits | ⟨x, rfl, hx⟩
      · obtain ⟨c, s, hs, hc⟩ := numberChars_eq_cons hdigits
        refine ⟨c, s, hs, isBlank_of_isNumeric hc, ?_⟩
        rintro rfl
        cases hc
      · exact floatChars_eq_cons hx

theorem skipBlanks_cons {c : Char} (hc : isBlank c = false) (s : List Char) :
    skipBlanks (c :: s) = c :: s :=
  List.dropWhile_cons_of_neg (Bool.eq_false_iff.1 hc)

/-- Blanks before legible data are skipped up to the data. -/
theorem skipBlanks_data {d : Datum} (h : Legible d) {w : List Char} (hw : Blanks w)
    (x : List Char) : skipBlanks (w ++ (l.data k d ++ x)) = l.data k d ++ x := by
  obtain ⟨c, s, hs, hc, -⟩ := data_eq_cons (l := l) (k := k) h
  rw [skipBlanks_append hw, hs, List.cons_append]
  exact skipBlanks_cons hc (s ++ x)

/-- Blanks before a character that is none are skipped up to it. -/
theorem skipBlanks_append_cons {w : List Char} (hw : Blanks w) {c : Char}
    (hc : isBlank c = false) (s : List Char) : skipBlanks (w ++ c :: s) = c :: s := by
  rw [skipBlanks_append hw]
  exact skipBlanks_cons hc s

/-- No number goes on with blanks, or with a character behind them that is no part of one. -/
theorem endsNumber_blanks {w : List Char} (hw : Blanks w) {c : Char} (hc : isNumeric c = false)
    (s : List Char) : EndsNumber (w ++ c :: s) := by
  cases w with
  | nil => exact endsNumber_cons hc s
  | cons b w =>
      refine endsNumber_cons (Bool.eq_false_iff.2 fun hb => ?_) _
      have hblank := isBlank_of_isNumeric hb
      rw [hw b List.mem_cons_self] at hblank
      cases hblank

/-! ## Reading on -/

section Reading

variable {levels fuel : Nat} {x : List Char}

/-- A string is read behind its opening quote. -/
theorem takeString_stringChars (s : String) (x : List Char) :
    ∃ inner, stringChars s ++ x = '"' :: inner ∧
      takeString (inner.length + 1) inner = .ok (Text.points s.toList, x) := by
  refine ⟨s.toList.flatMap charEscape ++ '"' :: x, by simp [stringChars], ?_⟩
  apply takeString_flatMap_charEscape
  have hlength := length_le_flatMap charEscape_ne_nil s.toList
  simp only [List.length_append, List.length_cons]
  omega

theorem ofPoints_points (s : String) : Datum.ofPoints (Text.points s.toList) = .text s := by
  rw [Datum.ofPoints, Text.wholeText?_points]
  exact congrArg Datum.text String.ofList_toList

theorem mendedText_points (s : String) : Text.mendedText (Text.points s.toList) = s := by
  have hshown : Text.Point.shown ∘ Text.Point.char = id := rfl
  rw [Text.mendedText, Text.points, List.map_map, hshown, List.map_id, String.ofList_toList]

theorem takeValue_text (s : String) (x : List Char) :
    takeValue levels (fuel + 1) (l.data k (.text s) ++ x) = .ok (.text s, x) := by
  obtain ⟨inner, hinner, hread⟩ := takeString_stringChars s x
  show takeValue levels (fuel + 1) (stringChars s ++ x) = _
  rw [hinner]
  simp only [takeValue, hread]
  show Except.ok (Datum.ofPoints (Text.points s.toList), x) = _
  rw [ofPoints_points]

theorem takeValue_torn {ps : List Text.Point} (h : Legible (.torn ps)) (x : List Char) :
    takeValue levels (fuel + 1) (l.data k (.torn ps) ++ x) = .ok (.torn ps, x) := by
  obtain ⟨hhalves, hpaired, hpoints⟩ := h
  have hlength := length_le_flatMap pointEscape_ne_nil ps
  have hread := takeString_flatMap_pointEscape hhalves x
    ((ps.flatMap pointEscape ++ '"' :: x).length + 1)
    (by simp only [List.length_append, List.length_cons]; omega)
  show takeValue levels (fuel + 1) (pointsChars ps ++ x) = _
  rw [pointsChars_eq, List.cons_append, List.append_assoc, List.singleton_append]
  simp only [takeValue, hread]
  show Except.ok (Datum.ofPoints (paired ps), x) = _
  rw [hpaired, hpoints]

/-- A double that is not finite is read from its word. -/
theorem takeValue_word {y : Float} (h : y.isFinite = false) (x : List Char) :
    takeValue levels (fuel + 1) (floatChars y ++ x) = .ok (.number (.float y), x) := by
  rcases eq_ofUnpacked_of_not_finite h with rfl | ⟨s, rfl⟩
  · rfl
  · cases s with
    | positive => rfl
    | negative => rfl

theorem takeValue_number {n : Number} (h : Legible (.number n)) (hx : EndsNumber x) :
    takeValue levels (fuel + 1) (l.data k (.number n) ++ x) = .ok (.number n, x) := by
  rcases legible_number_cases h with hdigits | ⟨y, rfl, hy⟩
  · have hscalar := takeScalar_append hx (takeNumber_numberChars hdigits)
    obtain ⟨c, s, hs, hc⟩ := numberChars_eq_cons hdigits
    show takeValue levels (fuel + 1) (numberChars n ++ x) = _
    rw [hs, List.cons_append] at hscalar ⊢
    rw [takeValue_of_isNumeric _ _ hc]
    exact hscalar
  · exact takeValue_word hy x

/-- Items start with the first one. -/
theorem exists_items (d : Datum) (rest : List Datum) (x : List Char) :
    ∃ y, l.items k (d :: rest) ++ x = l.data k d ++ y := by
  cases rest with
  | nil => exact ⟨x, rfl⟩
  | cons e rest => exact ⟨_, by rw [Layout.items_cons_cons, List.append_assoc, List.append_assoc]⟩

/-- Fields start with the quote of the first name. -/
theorem exists_fields (f : String × Datum) (rest : Fields) (x : List Char) :
    ∃ y, l.fields k (f :: rest) ++ x = '"' :: y := by
  cases rest with
  | nil => exact ⟨_, rfl⟩
  | cons g rest => exact ⟨_, rfl⟩

theorem takeValue_list {d : Datum} {rest : List Datum} (h : LegibleItems (d :: rest))
    (hread : takeItems levels fuel
      (l.items (k + 1) (d :: rest) ++ (l.closing k ++ ']' :: x)) = .ok (d :: rest, x)) :
    takeValue (levels + 1) (fuel + 1) (l.data k (.list (d :: rest)) ++ x) =
      .ok (.list (d :: rest), x) := by
  -- the text goes on with the first item, so the list is not taken for an empty one
  obtain ⟨y, hy⟩ := exists_items (l := l) (k := k + 1) d rest (l.closing k ++ ']' :: x)
  have hskip := skipBlanks_data (l := l) (k := k + 1) h.1 (l.blanks_opening (k + 1)) y
  obtain ⟨c, s, hs, -, hclose⟩ := data_eq_cons (l := l) (k := k + 1) h.1
  have htext : l.data k (.list (d :: rest)) ++ x =
      '[' :: (l.opening (k + 1) ++ (l.data (k + 1) d ++ y)) := by
    rw [← hy]
    simp [Layout.data]
  rw [hy] at hread
  rw [htext]
  rw [hs, List.cons_append] at hread hskip ⊢
  have hvalue : takeValue (levels + 1) (fuel + 1) ('[' :: (l.opening (k + 1) ++
      (c :: (s ++ y)))) = (fun r => (.list r.1, r.2)) <$> takeItems levels fuel (c :: (s ++ y)) := by
    simp [takeValue, enter, hskip, hclose]
    rfl
  rw [hvalue, hread]
  rfl

theorem takeValue_record {f : String × Datum} {rest : Fields}
    (hread : takeFields levels fuel []
      (l.fields (k + 1) (f :: rest) ++ (l.closing k ++ '\x7d' :: x)) =
        .ok (f :: rest, x)) :
    takeValue (levels + 1) (fuel + 1) (l.data k (.record (f :: rest)) ++ x) =
      .ok (.record (f :: rest), x) := by
  obtain ⟨y, hy⟩ := exists_fields (l := l) (k := k + 1) f rest
    (l.closing k ++ '\x7d' :: x)
  have hskip := skipBlanks_append_cons (l.blanks_opening (k + 1)) (c := '"') rfl y
  have htext : l.data k (.record (f :: rest)) ++ x =
      '\x7b' :: (l.opening (k + 1) ++ '"' :: y) := by
    rw [← hy]
    simp [Layout.data]
  rw [hy] at hread
  have hvalue : takeValue (levels + 1) (fuel + 1) ('\x7b' :: (l.opening (k + 1) ++ '"' :: y)) =
      (fun r => (.record r.1, r.2)) <$> takeFields levels fuel [] ('"' :: y) := by
    simp [takeValue, enter, hskip]
    rfl
  rw [htext, hvalue, hread]
  rfl

/-- An item is read, and then the bracket or the comma behind it. -/
theorem takeItems_single {d : Datum} {w : List Char} (hw : Blanks w)
    (hread : ∀ x, EndsNumber x → takeValue levels fuel (l.data k d ++ x) = .ok (d, x)) :
    takeItems levels (fuel + 1) (l.items k [d] ++ (w ++ ']' :: x)) = .ok ([d], x) := by
  have hskip := skipBlanks_append_cons hw (c := ']') rfl x
  have hvalue := hread _ (endsNumber_blanks hw (c := ']') rfl x)
  show takeItems levels (fuel + 1) (l.data k d ++ (w ++ ']' :: x)) = _
  simp only [takeItems, hvalue, bind, Except.bind]
  rw [hskip]
  rfl

theorem takeItems_cons {d e : Datum} {rest read : List Datum} {t : List Char} (he : Legible e)
    (hread : ∀ x, EndsNumber x → takeValue levels fuel (l.data k d ++ x) = .ok (d, x))
    (hrest : takeItems levels fuel (l.items k (e :: rest) ++ x) = .ok (read, t)) :
    takeItems levels (fuel + 1) (l.items k (d :: e :: rest) ++ x) = .ok (d :: read, t) := by
  obtain ⟨y, hy⟩ := exists_items (l := l) (k := k) e rest x
  have hskip := skipBlanks_data (l := l) (k := k) he (l.blanks_between k) y
  have htext : l.items k (d :: e :: rest) ++ x =
      l.data k d ++ ',' :: (l.between k ++ (l.data k e ++ y)) := by
    rw [← hy]
    simp [Layout.items_cons_cons]
  rw [htext, takeItems, hread _ (endsNumber_cons rfl _)]
  show takeItems levels fuel (skipBlanks (l.between k ++ (l.data k e ++ y))) >>= _ = _
  rw [hskip, ← hy, hrest]
  rfl

/-- A field is read up to its value. -/
theorem takeFields_value {name : String} {d : Datum} {read : Fields} (hd : Legible d)
    (hread : takeValue levels fuel (l.data k d ++ x) = .ok (d, x)) :
    takeFields levels (fuel + 1) read (stringChars name ++ ':' :: ' ' :: (l.data k d ++ x)) =
      match skipBlanks x with
      | '\x7d' :: s => pure (read.set name d, s)
      | ',' :: s => takeFields levels fuel (read.set name d) (skipBlanks s)
      | _ => malformed := by
  obtain ⟨inner, hinner, hstring⟩ := takeString_stringChars name
    (':' :: ' ' :: (l.data k d ++ x))
  have hskip := skipBlanks_data (l := l) (k := k) hd (oneLine.blanks_between 0) x
  rw [hinner]
  simp only [takeFields, hstring]
  change takeValue levels fuel (skipBlanks (' ' :: (l.data k d ++ x))) >>= _ = _
  change skipBlanks (' ' :: (l.data k d ++ x)) = _ at hskip
  rw [hskip, hread]
  simp only [mendedText_points]
  rfl

theorem takeFields_single {name : String} {d : Datum} {read : Fields} {w : List Char}
    (hd : Legible d) (hw : Blanks w)
    (hread : ∀ x, EndsNumber x → takeValue levels fuel (l.data k d ++ x) = .ok (d, x)) :
    takeFields levels (fuel + 1) read (l.fields k [(name, d)] ++ (w ++ '\x7d' :: x)) =
      .ok (read.set name d, x) := by
  show takeFields levels (fuel + 1) read
    ((stringChars name ++ ':' :: ' ' :: l.data k d) ++ (w ++ '\x7d' :: x)) = _
  rw [List.append_assoc, List.cons_append, List.cons_append,
    takeFields_value hd (hread _ (endsNumber_blanks hw rfl x)),
    skipBlanks_append_cons hw (c := '\x7d') rfl]
  rfl

theorem takeFields_cons {name : String} {d : Datum} {f : String × Datum} {rest read : Fields}
    (hd : Legible d)
    (hread : ∀ x, EndsNumber x → takeValue levels fuel (l.data k d ++ x) = .ok (d, x)) :
    takeFields levels (fuel + 1) read (l.fields k ((name, d) :: f :: rest) ++ x) =
      takeFields levels fuel (read.set name d) (l.fields k (f :: rest) ++ x) := by
  obtain ⟨y, hy⟩ := exists_fields (l := l) (k := k) f rest x
  have hskip := skipBlanks_append_cons (l.blanks_between k) (c := '"') rfl y
  have htext : l.fields k ((name, d) :: f :: rest) ++ x =
      stringChars name ++ ':' :: ' ' :: (l.data k d ++ ',' :: (l.between k ++ '"' :: y)) := by
    rw [← hy]
    simp [Layout.fields_cons_cons]
  rw [htext, hy, takeFields_value hd (hread _ (endsNumber_cons rfl _))]
  show takeFields levels fuel _ (skipBlanks (l.between k ++ '"' :: y)) = _
  rw [hskip]

end Reading

/-- A new name comes last. -/
theorem set_of_notMem {name : String} {d : Datum} : ∀ {read : Fields}, name ∉ read.names →
    read.set name d = read ++ [(name, d)]
  | [], _ => rfl
  | (n, old) :: rest, h => by
      have hhead : n ≠ name := fun hn => h (hn ▸ List.mem_cons_self)
      have hrest : name ∉ Fields.names rest := fun hn => h (List.mem_cons_of_mem n hn)
      rw [Fields.set, if_neg hhead, set_of_notMem hrest, List.cons_append]

/-- A name that comes once is not among those before it. -/
theorem notMem_names {name : String} {d : Datum} {read rest : Fields}
    (h : (read ++ (name, d) :: rest).names.Nodup) : name ∉ read.names := by
  rw [Fields.names, List.map_append, List.nodup_append] at h
  exact fun hname => h.2.2 name hname name List.mem_cons_self rfl

/-! ## Reading what was written -/

-- The recursion follows the data: a bracket takes one of the levels, a value some of the fuel.
mutual

/-- Legible data is read from any layout of it, up to what follows it. -/
theorem takeValue_data : ∀ (d : Datum) {k levels fuel : Nat} {x : List Char}, Legible d →
    d.depth ≤ levels → size d ≤ fuel → EndsNumber x →
    takeValue levels fuel (l.data k d ++ x) = .ok (d, x)
  | _, _, _, 0, _, _, _, hsize, _ => absurd hsize (by cases ‹Datum› <;> simp [size])
  | .null, _, _, _ + 1, _, _, _, _, _ => rfl
  | .bool true, _, _, _ + 1, _, _, _, _, _ => rfl
  | .bool false, _, _, _ + 1, _, _, _, _, _ => rfl
  | .number _, _, _, _ + 1, _, h, _, _, hx => takeValue_number h hx
  | .text s, _, _, _ + 1, x, _, _, _, _ => takeValue_text s x
  | .torn _, _, _, _ + 1, x, h, _, _, _ => takeValue_torn h x
  | .list _, _, 0, _ + 1, _, _, hdepth, _, _ => absurd hdepth (Nat.not_succ_le_zero _)
  | .list [], _, _ + 1, _ + 1, _, _, _, _, _ => rfl
  | .list (d :: rest), k, _ + 1, _ + 1, _, h, hdepth, hsize, _ =>
    takeValue_list h (takeItems_items (d :: rest) (l.blanks_closing k)
      (List.cons_ne_nil d rest) h (Nat.le_of_succ_le_succ hdepth) (Nat.le_of_succ_le_succ hsize))
  | .record _, _, 0, _ + 1, _, _, hdepth, _, _ => absurd hdepth (Nat.not_succ_le_zero _)
  | .record [], _, _ + 1, _ + 1, _, _, _, _, _ => rfl
  | .record (f :: rest), k, _ + 1, _ + 1, _, h, hdepth, hsize, _ =>
    takeValue_record (takeFields_fields (f :: rest) [] (l.blanks_closing k)
      (List.cons_ne_nil f rest) h.2 h.1 (Nat.le_of_succ_le_succ hdepth)
      (Nat.le_of_succ_le_succ hsize))

/-- Items are read up to the closing bracket. -/
theorem takeItems_items : ∀ (items : List Datum) {k levels fuel : Nat} {w x : List Char},
    Blanks w → items ≠ [] → LegibleItems items → Datum.depthOfItems items ≤ levels →
    sizeOfItems items ≤ fuel →
    takeItems levels fuel (l.items k items ++ (w ++ ']' :: x)) = .ok (items, x)
  | [], _, _, _, _, _, _, hne, _, _, _ => absurd rfl hne
  | _ :: _, _, _, 0, _, _, _, _, _, _, hsize => absurd hsize (Nat.not_succ_le_zero _)
  | [d], _, _, _ + 1, _, _, hw, _, h, hdepth, hsize => by
      have hd : d.depth ≤ _ := Nat.le_trans (Nat.le_max_left _ _) hdepth
      have hfuel : size d ≤ _ := Nat.le_of_succ_le_succ hsize
      exact takeItems_single hw fun x hx => takeValue_data d h.1 hd hfuel hx
  | d :: e :: rest, k, levels, fuel + 1, w, x, hw, _, h, hdepth, hsize => by
      have hd : d.depth ≤ levels := Nat.le_trans (Nat.le_max_left _ _) hdepth
      have hrest : Datum.depthOfItems (e :: rest) ≤ levels :=
        Nat.le_trans (Nat.le_max_right _ _) hdepth
      have hsizes : size d + sizeOfItems (e :: rest) ≤ fuel := Nat.le_of_succ_le_succ hsize
      have hread := takeItems_items (e :: rest) (k := k) (x := x) hw (List.cons_ne_nil e rest)
        h.2 hrest (Nat.le_trans (Nat.le_add_left _ _) hsizes)
      exact takeItems_cons h.2.1
        (fun x hx => takeValue_data d h.1 hd (Nat.le_trans (Nat.le_add_right _ _) hsizes) hx)
        hread

/-- Fields are read up to the closing brace, behind the fields read so far. -/
theorem takeFields_fields : ∀ (fields read : Fields) {k levels fuel : Nat}
    {w x : List Char}, Blanks w →
    fields ≠ [] → LegibleFields fields → (read ++ fields).names.Nodup →
    Datum.depthOfFields fields ≤ levels → sizeOfFields fields ≤ fuel →
    takeFields levels fuel read (l.fields k fields ++ (w ++ '\x7d' :: x)) =
      .ok (read ++ fields, x)
  | [], _, _, _, _, _, _, _, hne, _, _, _, _ => absurd rfl hne
  | _ :: _, _, _, _, 0, _, _, _, _, _, _, _, hsize => absurd hsize (Nat.not_succ_le_zero _)
  | [(name, d)], read, _, _, _ + 1, _, _, hw, _, h, hnames, hdepth, hsize => by
      have hd : d.depth ≤ _ := Nat.le_trans (Nat.le_max_left _ _) hdepth
      have hfuel : size d ≤ _ := Nat.le_of_succ_le_succ hsize
      rw [takeFields_single h.1 hw fun x hx => takeValue_data d h.1 hd hfuel hx,
        set_of_notMem (notMem_names hnames)]
  | (name, d) :: f :: rest, read, _, levels, fuel + 1, _, x, hw, _, h, hnames, hdepth, hsize => by
      have hd : d.depth ≤ levels := Nat.le_trans (Nat.le_max_left _ _) hdepth
      have hrest : Datum.depthOfFields (f :: rest) ≤ levels :=
        Nat.le_trans (Nat.le_max_right _ _) hdepth
      have hsizes : size d + sizeOfFields (f :: rest) ≤ fuel := Nat.le_of_succ_le_succ hsize
      have hassoc : read ++ (name, d) :: f :: rest = (read ++ [(name, d)]) ++ f :: rest := by simp
      -- the name is new, so its field comes behind those that have been read
      rw [takeFields_cons h.1 fun x hx =>
          takeValue_data d h.1 hd (Nat.le_trans (Nat.le_add_right _ _) hsizes) hx,
        set_of_notMem (notMem_names hnames), hassoc]
      exact takeFields_fields (f :: rest) (read ++ [(name, d)]) hw (List.cons_ne_nil f rest) h.2
        (hassoc ▸ hnames) hrest (Nat.le_trans (Nat.le_add_left _ _) hsizes)

end

mutual

/-- The fuel for data is less than twice the length of its text. -/
theorem size_lt_length : ∀ (d : Datum) (k : Nat), Legible d →
    size d < 2 * (l.data k d).length
  | .null, _, _ => by
      show 1 < 2 * "null".toList.length
      decide
  | .bool true, _, _ => by
      show 1 < 2 * "true".toList.length
      decide
  | .bool false, _, _ => by
      show 1 < 2 * "false".toList.length
      decide
  | .number n, k, h => by
      obtain ⟨c, s, hs, -⟩ := data_eq_cons (l := l) (k := k) h
      rw [hs, List.length_cons]
      show 1 < _
      omega
  | .text s, _, _ => by
      show 1 < 2 * (stringChars s).length
      simp only [stringChars, List.length_append, List.length_cons]
      omega
  | .torn ps, _, _ => by
      show 1 < 2 * (pointsChars ps).length
      simp only [pointsChars_eq, List.length_append, List.length_cons]
      omega
  | .list [], _, _ => by
      show 1 < 2 * 2
      decide
  | .list (d :: rest), k, h => by
      have hitems := sizeOfItems_le_length (d :: rest) (k + 1) h
      show sizeOfItems (d :: rest) + 1 < _
      simp only [Layout.data, List.length_append, List.length_cons, List.length_nil]
      omega
  | .record [], _, _ => by
      show 1 < 2 * 2
      decide
  | .record (f :: rest), k, h => by
      have hfields := sizeOfFields_le_length (f :: rest) (k + 1) h.2
      show sizeOfFields (f :: rest) + 1 < _
      simp only [Layout.data, List.length_append, List.length_cons, List.length_nil]
      omega

theorem sizeOfItems_le_length : ∀ (items : List Datum) (k : Nat), LegibleItems items →
    sizeOfItems items ≤ 2 * (l.items k items).length
  | [], _, _ => Nat.le_refl _
  | [d], k, h => size_lt_length d k h.1
  | d :: e :: rest, k, h => by
      have hd := size_lt_length d k h.1
      have hrest := sizeOfItems_le_length (e :: rest) k h.2
      show size d + sizeOfItems (e :: rest) + 1 ≤ _
      simp only [Layout.items_cons_cons, List.length_append, List.length_cons]
      omega

theorem sizeOfFields_le_length : ∀ (fields : Fields) (k : Nat), LegibleFields fields →
    sizeOfFields fields ≤ 2 * (l.fields k fields).length
  | [], _, _ => Nat.le_refl _
  | [(name, d)], k, h => by
      have hd := size_lt_length d k h.1
      show size d + 0 + 1 ≤ 2 * (stringChars name ++ ':' :: ' ' :: l.data k d).length
      simp only [List.length_append, List.length_cons]
      omega
  | (name, d) :: f :: rest, k, h => by
      have hd := size_lt_length d k h.1
      have hrest := sizeOfFields_le_length (f :: rest) k h.2
      show size d + sizeOfFields (f :: rest) + 1 ≤ _
      simp only [Layout.fields_cons_cons, List.length_append, List.length_cons]
      omega

end

/-- **Legible data is read back from any layout of it**, with blanks behind it or without, unless it
is nested too deeply. -/
theorem read_data {d : Datum} (h : Legible d) (hdepth : d.depth ≤ deepest) {w : List Char}
    (hw : Blanks w) : Json.read (l.data k d ++ w) = .ok d := by
  have hlength := size_lt_length (l := l) d k h
  have hsize : size d ≤ 2 * (l.data k d ++ w).length + 2 := by
    rw [List.length_append]
    omega
  have hends : EndsNumber w := by
    have hend := endsNumber_blanks hw (c := ']') rfl []
    intro c hc
    cases w with
    | nil => cases hc
    | cons b w => exact hend c hc
  have hskip := skipBlanks_data (l := l) (k := k) h (w := []) (List.forall_mem_nil _) w
  have hrest := skipBlanks_append hw []
  rw [List.append_nil] at hrest
  rw [List.nil_append] at hskip
  rw [Json.read, hskip, takeValue_data d h hdepth hsize hends]
  show (if skipBlanks w = [] then _ else _) = _
  rw [hrest]
  rfl

/-- **Legible data is read back from its line.** -/
theorem read_compact {d : Datum} (h : Legible d) (hdepth : d.depth ≤ deepest) :
    Json.read (compact d) = .ok d := by
  have hread := read_data (l := oneLine) (k := 0) h hdepth (w := []) (List.forall_mem_nil _)
  rwa [List.append_nil, ← compact_eq_data] at hread

/-! ## Sorted data -/

theorem legibleFields_iff {fields : Fields} :
    LegibleFields fields ↔ ∀ f ∈ fields, Legible f.2 := by
  induction fields with
  | nil => simp [LegibleFields]
  | cons f rest ih => simp [LegibleFields, ih]

mutual

/-- Data stays legible when it is sorted. -/
theorem legible_sorted : ∀ d : Datum, Legible d → Legible d.sorted
  | .null, _ => trivial
  | .bool _, _ => trivial
  | .text _, _ => trivial
  | .torn _, h => h
  | .number _, h => h
  | .list items, h => legibleItems_sorted items h
  | .record fields, h => by
      have hperm := Datum.perm_sortedFields fields
      have hnames : (Fields.names (Datum.sortedFields fields)).Nodup :=
        (Datum.names_sortedFields fields).symm ▸ h.1
      have hfields := legibleFields_iff.1 (legibleFields_sorted fields h.2)
      exact ⟨(hperm.map Prod.fst).nodup_iff.2 hnames,
        legibleFields_iff.2 fun f hf => hfields f (hperm.mem_iff.1 hf)⟩

theorem legibleItems_sorted : ∀ items : List Datum, LegibleItems items →
    LegibleItems (Datum.sortedItems items)
  | [], _ => trivial
  | d :: rest, h => ⟨legible_sorted d h.1, legibleItems_sorted rest h.2⟩

theorem legibleFields_sorted : ∀ fields : Fields, LegibleFields fields →
    LegibleFields (Datum.sortedFields fields)
  | [], _ => trivial
  | (_, d) :: rest, h => ⟨legible_sorted d h.1, legibleFields_sorted rest h.2⟩

end

/-! ## Data that can be stored -/

theorem legible_int {n : Int} (h : Number.isWritable (.int n) = true) :
    Legible (.number (.int n)) := by
  rw [Number.isWritable, decide_eq_true_eq] at h
  rw [Legible]
  exact h

theorem legible_number {n : Number} (h : Datum.Storable (.number n)) (hint : n.isWritable = true)
    (hfloat : ∀ x ∈ Datum.floats (.number n), ReadsBack x) : Legible (.number n) := by
  cases n with
  | int n => exact legible_int hint
  | float x => exact fun _ => hfloat x List.mem_cons_self
  | ratio q => exact absurd h id

mutual

/-- Storable data is legible, if its integers can be written and its doubles read back. -/
theorem legible_of_storable : ∀ d : Datum, d.Storable → d.isWritable = true →
    (∀ x ∈ d.floats, ReadsBack x) → Legible d
  | .null, _, _, _ => trivial
  | .bool _, _, _, _ => trivial
  | .text _, _, _, _ => trivial
  | .torn _, h, _, _ => absurd h id
  | .number _, h, hint, hfloat => legible_number h hint hfloat
  | .list items, h, hint, hfloat => legibleItems_of_storable items h hint hfloat
  | .record fields, h, hint, hfloat => ⟨h.1, legibleFields_of_storable fields h.2 hint hfloat⟩

theorem legibleItems_of_storable : ∀ items : List Datum, Datum.StorableItems items →
    Datum.areWritable items = true → (∀ x ∈ Datum.floatsOfItems items, ReadsBack x) →
    LegibleItems items
  | [], _, _, _ => trivial
  | d :: rest, h, hint, hfloat => by
      obtain ⟨hd, hrest⟩ := Bool.and_eq_true_iff.1 hint
      obtain ⟨hfloat, hfloats⟩ := List.forall_mem_append.1 hfloat
      exact ⟨legible_of_storable d h.1 hd hfloat, legibleItems_of_storable rest h.2 hrest hfloats⟩

theorem legibleFields_of_storable : ∀ fields : Fields, Datum.StorableFields fields →
    Datum.areWritableFields fields = true → (∀ x ∈ Datum.floatsOfFields fields, ReadsBack x) →
    LegibleFields fields
  | [], _, _, _ => trivial
  | (_, d) :: rest, h, hint, hfloat => by
      obtain ⟨hd, hrest⟩ := Bool.and_eq_true_iff.1 hint
      obtain ⟨hfloat, hfloats⟩ := List.forall_mem_append.1 hfloat
      exact ⟨legible_of_storable d h.1 hd hfloat, legibleFields_of_storable rest h.2 hrest hfloats⟩

end

end Calculator.Json
