import Calculator.Json.Reader
import Calculator.Json.Writer

/-!
# Layouts of JSON

Data on one line and data over several lines differ in the blanks that stand between the items of
collections and beside their brackets. `Layout.data` writes data with any such blanks; what is proved
of it holds of both forms (`compact_eq_data`, `indentedAt_eq_data`).
-/

set_option autoImplicit false

namespace Calculator.Json

/-- The characters are blanks of JSON. -/
def Blanks (s : List Char) : Prop := ∀ c ∈ s, isBlank c

theorem skipBlanks_append {w : List Char} (hw : Blanks w) (s : List Char) :
    skipBlanks (w ++ s) = skipBlanks s :=
  List.dropWhile_append_of_pos hw

/-- Where blanks stand in collections: behind the opening bracket and behind commas, by the level of
the items, and before the closing bracket, by the level of the collection. -/
structure Layout where
  opening : Nat → List Char
  between : Nat → List Char
  closing : Nat → List Char
  blanks_opening : ∀ level, Blanks (opening level)
  blanks_between : ∀ level, Blanks (between level)
  blanks_closing : ∀ level, Blanks (closing level)

namespace Layout

mutual

/-- Data in a layout. -/
def data (l : Layout) (level : Nat) : Datum → List Char
  | .list [] => ['[', ']']
  | .list (d :: rest) =>
    '[' :: l.opening (level + 1) ++ l.items (level + 1) (d :: rest) ++ l.closing level ++ [']']
  | .record [] => ['\x7b', '\x7d']
  | .record (f :: rest) =>
    '\x7b' :: l.opening (level + 1) ++ l.fields (level + 1) (f :: rest) ++ l.closing level ++
      ['\x7d']
  | d => scalarChars d

/-- Items in a layout, without the blanks around them. -/
def items (l : Layout) (level : Nat) : List Datum → List Char
  | [] => []
  | [d] => l.data level d
  | d :: rest => l.data level d ++ ',' :: l.between level ++ l.items level rest

/-- Fields in a layout, without the blanks around them. -/
def fields (l : Layout) (level : Nat) : List (String × Datum) → List Char
  | [] => []
  | [(name, d)] => stringChars name ++ ':' :: ' ' :: l.data level d
  | (name, d) :: rest =>
    stringChars name ++ ':' :: ' ' :: l.data level d ++ ',' :: l.between level ++
      l.fields level rest

end

variable (l : Layout)

theorem items_cons_cons (level : Nat) (d e : Datum) (rest : List Datum) :
    l.items level (d :: e :: rest) =
      l.data level d ++ ',' :: l.between level ++ l.items level (e :: rest) := by
  rw [items]
  exact fun h => nomatch h

theorem fields_cons_cons (level : Nat) (name : String) (d : Datum) (f : String × Datum)
    (rest : Fields) :
    l.fields level ((name, d) :: f :: rest) =
      stringChars name ++ ':' :: ' ' :: l.data level d ++ ',' :: l.between level ++
        l.fields level (f :: rest) := by
  rw [fields]
  exact fun h => nomatch h

end Layout

/-! ## One line -/

/-- A blank behind each comma. -/
def oneLine : Layout where
  opening _ := []
  between _ := [' ']
  closing _ := []
  blanks_opening _ := fun _ hc => nomatch hc
  blanks_between _ := by simp [Blanks, isBlank]
  blanks_closing _ := fun _ hc => nomatch hc

theorem compactItems_cons_cons (d e : Datum) (rest : List Datum) :
    compactItems (d :: e :: rest) = compact d ++ ',' :: ' ' :: compactItems (e :: rest) := rfl

theorem compactFields_cons_cons (name : String) (d : Datum) (f : String × Datum) (rest : Fields) :
    compactFields ((name, d) :: f :: rest) =
      stringChars name ++ ':' :: ' ' :: compact d ++ ',' :: ' ' :: compactFields (f :: rest) := rfl

mutual

/-- **Data on one line are in a layout.** -/
theorem compact_eq_data (level : Nat) : ∀ d : Datum, compact d = oneLine.data level d
  | .null | .bool _ | .number _ | .text _ | .torn _ => by rw [Layout.data, compact] <;> simp
  | .list [] => rfl
  | .list (d :: rest) => by
      rw [compact, compactItems_eq_items (level + 1) (d :: rest), Layout.data]
      simp [oneLine]
  | .record [] => rfl
  | .record (f :: rest) => by
      rw [compact, compactFields_eq_fields (level + 1) (f :: rest), Layout.data]
      simp [oneLine]

theorem compactItems_eq_items (level : Nat) : ∀ items : List Datum,
    compactItems items = oneLine.items level items
  | [] => rfl
  | [d] => compact_eq_data level d
  | d :: e :: rest => by
      rw [compactItems_cons_cons, Layout.items_cons_cons, compact_eq_data level d,
        compactItems_eq_items level (e :: rest)]
      simp [oneLine]

theorem compactFields_eq_fields (level : Nat) : ∀ fields : Fields,
    compactFields fields = oneLine.fields level fields
  | [] => rfl
  | [(name, d)] => by
      show stringChars name ++ ':' :: ' ' :: compact d = _
      rw [compact_eq_data level d]
      rfl
  | (name, d) :: f :: rest => by
      rw [compactFields_cons_cons, Layout.fields_cons_cons, compact_eq_data level d,
        compactFields_eq_fields level (f :: rest)]
      simp [oneLine]

end

/-! ## Several lines -/

theorem blanks_newline (level : Nat) : Blanks (newline level) := by
  intro c hc
  rcases List.mem_cons.1 hc with rfl | hc
  · rfl
  · obtain rfl := List.eq_of_mem_replicate hc
    rfl

/-- Items on lines of their own. -/
def manyLines : Layout where
  opening := newline
  between := newline
  closing := newline
  blanks_opening := blanks_newline
  blanks_between := blanks_newline
  blanks_closing := blanks_newline

mutual

/-- **Data over several lines are in a layout.** -/
theorem indentedAt_eq_data : ∀ (d : Datum) (level : Nat),
    indentedAt level d = manyLines.data level d
  | .null, _ | .bool _, _ | .number _, _ | .text _, _ | .torn _, _ => by
      rw [Layout.data, indentedAt] <;> simp
  | .list [], _ => rfl
  | .list (d :: rest), level => by
      rw [indentedAt, indentedItems_eq_items (d :: rest) (List.cons_ne_nil d rest), Layout.data]
      · rfl
      · exact fun h => nomatch h
  | .record [], _ => rfl
  | .record (f :: rest), level => by
      rw [indentedAt, indentedFields_eq_fields (f :: rest) (List.cons_ne_nil f rest), Layout.data]
      · rfl
      · exact fun h => nomatch h

theorem indentedItems_eq_items : ∀ (items : List Datum), items ≠ [] → ∀ level : Nat,
    indentedItems level items = newline level ++ manyLines.items level items
  | [], hne, _ => absurd rfl hne
  | [d], _, level => by
      rw [indentedItems, indentedAt_eq_data d]
      rfl
  | d :: e :: rest, _, level => by
      rw [indentedItems, indentedAt_eq_data d,
        indentedItems_eq_items (e :: rest) (List.cons_ne_nil e rest), Layout.items_cons_cons]
      · simp [manyLines]
      · exact fun h => nomatch h

theorem indentedFields_eq_fields : ∀ (fields : Fields), fields ≠ [] → ∀ level : Nat,
    indentedFields level fields = newline level ++ manyLines.fields level fields
  | [], hne, _ => absurd rfl hne
  | [(name, d)], _, level => by
      rw [indentedFields, indentedAt_eq_data d]
      simp [Layout.fields]
  | (name, d) :: f :: rest, _, level => by
      rw [indentedFields, indentedAt_eq_data d,
        indentedFields_eq_fields (f :: rest) (List.cons_ne_nil f rest), Layout.fields_cons_cons]
      · simp [manyLines]
      · exact fun h => nomatch h

end

end Calculator.Json
