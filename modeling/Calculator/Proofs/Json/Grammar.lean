import Calculator.Proofs.Json.Doubles
import Calculator.Proofs.Json.RoundTrip

/-!
# The grammar of JSON

The texts that RFC 8259 allows (`IsDocument`). Data whose doubles are all finite are such a text in
any layout (`isValue_data`). The rest is in `Calculator.Proofs.Json.Words`.
-/

set_option autoImplicit false

namespace Calculator.Json

/-! ## Numbers -/

/-- An integer part: a zero, or digits that do not start with one. -/
inductive IsWhole : List Char → Prop where
  | zero : IsWhole ['0']
  | digits {c ds} : c.isDigit → c ≠ '0' → Digits ds → IsWhole (c :: ds)

/-- A point and at least one digit, or nothing. -/
inductive IsPlaces : List Char → Prop where
  | none : IsPlaces []
  | digits {ds} : ds ≠ [] → Digits ds → IsPlaces ('.' :: ds)

/-- An integer part, places and an exponent, with a minus or none before them. -/
inductive IsNumeral : List Char → Prop where
  | unsigned {whole places exponent} : IsWhole whole → IsPlaces places → IsExponent exponent →
      IsNumeral (whole ++ (places ++ exponent))
  | negative {whole places exponent} : IsWhole whole → IsPlaces places → IsExponent exponent →
      IsNumeral ('-' :: (whole ++ (places ++ exponent)))

/-! ## Strings -/

/-- The digits of base sixteen. -/
def hexDigits : List Char := "0123456789abcdefABCDEF".toList

/-- The letters of escapes that are followed by nothing more. -/
def escapeLetters : List Char := ['"', '\\', '/', 'b', 'f', 'n', 'r', 't']

/-- What may stand between the quotes of a string. -/
inductive IsInside : List Char → Prop where
  | nil : IsInside []
  | char {c s} : ' ' ≤ c → c ≠ '"' → c ≠ '\\' → IsInside s → IsInside (c :: s)
  | escape {c s} : c ∈ escapeLetters → IsInside s → IsInside ('\\' :: c :: s)
  | unit {ds s} : ds.length = 4 → (∀ d ∈ ds, d ∈ hexDigits) → IsInside s →
      IsInside ('\\' :: 'u' :: (ds ++ s))

/-- A string with its quotes. -/
inductive IsQuoted : List Char → Prop where
  | quotes {s} : IsInside s → IsQuoted ('"' :: (s ++ ['"']))

/-! ## Values -/

mutual

/-- A value. -/
inductive IsValue : List Char → Prop where
  | null : IsValue "null".toList
  | true : IsValue "true".toList
  | false : IsValue "false".toList
  | number {s} : IsNumeral s → IsValue s
  | string {s} : IsQuoted s → IsValue s
  | emptyArray {w} : Blanks w → IsValue ('[' :: (w ++ [']']))
  | array {s} : AreItems s → IsValue ('[' :: (s ++ [']']))
  | emptyObject {w} : Blanks w → IsValue ('\x7b' :: (w ++ ['\x7d']))
  | object {s} : AreMembers s → IsValue ('\x7b' :: (s ++ ['\x7d']))

/-- Values with commas between them. -/
inductive AreItems : List Char → Prop where
  | last {w s w'} : Blanks w → IsValue s → Blanks w' → AreItems (w ++ (s ++ w'))
  | cons {w s w' t} : Blanks w → IsValue s → Blanks w' → AreItems t →
      AreItems (w ++ (s ++ (w' ++ ',' :: t)))

/-- Names with values, with commas between them. -/
inductive AreMembers : List Char → Prop where
  | last {w name w₁ w₂ s w'} : Blanks w → IsQuoted name → Blanks w₁ → Blanks w₂ → IsValue s →
      Blanks w' → AreMembers (w ++ (name ++ (w₁ ++ ':' :: (w₂ ++ (s ++ w')))))
  | cons {w name w₁ w₂ s w' t} : Blanks w → IsQuoted name → Blanks w₁ → Blanks w₂ → IsValue s →
      Blanks w' → AreMembers t →
      AreMembers (w ++ (name ++ (w₁ ++ ':' :: (w₂ ++ (s ++ (w' ++ ',' :: t))))))

end

/-- A text of the grammar: a value with blanks around it. -/
def IsDocument (s : List Char) : Prop :=
  ∃ w v w', s = w ++ (v ++ w') ∧ Blanks w ∧ IsValue v ∧ Blanks w'

/-! ## Numbers that are read are numerals -/

section Numerals

variable {s t : List Char}

theorem takeWhole?_eq_some {whole rest : List Char} (h : takeWhole? s = some (whole, rest)) :
    s = whole ++ rest ∧ IsWhole whole := by
  unfold takeWhole? at h
  split at h
  · cases h
    exact ⟨rfl, .zero⟩
  · rename_i c s hzero
    split at h
    · rename_i hc
      cases h
      refine ⟨by simp, .digits hc ?_ (digits_takeWhile s)⟩
      rintro rfl
      exact hzero rfl
    · cases h
  · cases h

theorem exists_places (s : List Char) :
    ∃ places, IsPlaces places ∧ s = places ++ (takeFraction s).2 := by
  unfold takeFraction
  split
  · rename_i c s
    split
    · rename_i hc
      exact ⟨'.' :: (c :: s.takeWhile Char.isDigit),
        .digits (List.cons_ne_nil _ _) ((digits_takeWhile s).cons hc), by simp⟩
    · exact ⟨[], .none, rfl⟩
  · exact ⟨[], .none, rfl⟩

theorem exists_exponent (s : List Char) :
    ∃ exponent, IsExponent exponent ∧ s = exponent ++ (takeExponent s).2 := by
  cases s with
  | nil => exact ⟨[], .none, rfl⟩
  | cons mark s =>
      by_cases hmark : mark = 'e' ∨ mark = 'E'
      · have hexponentMark : isExponentMark mark := by
          rcases hmark with rfl | rfl
          · rfl
          · rfl
        by_cases hne : (takeSign s).2.takeWhile Char.isDigit = []
        · exact ⟨[], .none, by simp [takeExponent, hmark, hne]⟩
        · -- the exponent has digits, and they end where the reader goes on
          have hsplit : (takeSign s).2 = (takeSign s).2.takeWhile Char.isDigit ++
              (takeSign s).2.dropWhile Char.isDigit := List.takeWhile_append_dropWhile.symm
          have hrest : (takeExponent (mark :: s)).2 = (takeSign s).2.dropWhile Char.isDigit := by
            simp [takeExponent, hmark, hne]
          have hdigits := digits_takeWhile (takeSign s).2
          rw [hrest]
          have hsign : (∃ sign, isSign sign ∧ s = sign :: (takeSign s).2) ∨ s = (takeSign s).2 := by
            unfold takeSign
            split
            · exact .inl ⟨'-', rfl, rfl⟩
            · exact .inl ⟨'+', rfl, rfl⟩
            · exact .inr rfl
          rcases hsign with ⟨sign, hsign, hs⟩ | hs
          · refine ⟨_, .signed hexponentMark hsign hne hdigits, ?_⟩
            rw [List.cons_append, List.cons_append, ← hsplit, ← hs]
          · refine ⟨_, .unsigned hexponentMark hne hdigits, ?_⟩
            rw [List.cons_append, ← hsplit, ← hs]
      · exact ⟨[], .none, by simp [takeExponent, hmark]⟩

/-- **What is read as a number is a numeral.** -/
theorem isNumeral_of_takeNumber {n : Number} (h : takeNumber s = .ok (n, [])) : IsNumeral s := by
  obtain ⟨whole, rest, hwhole, hplaces⟩ := takeNumber_eq_ok h
  obtain ⟨places, hisPlaces, hrest⟩ := exists_places rest
  obtain ⟨exponent, hexponent, hends⟩ := exists_exponent (takeFraction rest).2
  obtain ⟨hbody, hisWhole⟩ := takeWhole?_eq_some hwhole
  have hnothing := takePlaces_eq_ok hplaces
  rw [← hnothing, List.append_nil] at hends
  rw [hrest, hends] at hbody
  cases s with
  | nil => exact absurd hbody (by cases hisWhole <;> simp [takeMinus])
  | cons c s =>
      by_cases hminus : c = '-'
      · subst hminus
        exact (show s = _ from hbody) ▸ .negative hisWhole hisPlaces hexponent
      · have hsame : (takeMinus (c :: s)).2 = c :: s := by simp [takeMinus, hminus]
        rw [hsame] at hbody
        exact hbody ▸ .unsigned hisWhole hisPlaces hexponent

end Numerals

/-! ## Strings that are written -/

theorem mem_hexDigits : ∀ n < 16, Text.hexDigit n ∈ hexDigits := by decide

theorem mem_hexDigits_of_mem_hexPadded {c : Char} : ∀ {width n : Nat},
    c ∈ Text.hexPadded width n → c ∈ hexDigits
  | _ + 1, n, hc => by
      rcases List.mem_append.1 hc with hc | hc
      · exact mem_hexDigits_of_mem_hexPadded hc
      · obtain rfl := List.mem_singleton.1 hc
        exact mem_hexDigits _ (Nat.mod_lt n (by decide))

theorem IsInside.append {s t : List Char} (hs : IsInside s) (ht : IsInside t) :
    IsInside (s ++ t) := by
  induction hs with
  | nil => exact ht
  | char hlow hquote hslash _ ih => exact .char hlow hquote hslash ih
  | escape hc _ ih => exact .escape hc ih
  | unit hlength hdigits _ ih =>
      rw [List.cons_append, List.cons_append, List.append_assoc]
      exact .unit hlength hdigits ih

theorem isInside_flatMap {α : Type} {f : α → List Char} (h : ∀ a, IsInside (f a)) :
    ∀ items : List α, IsInside (items.flatMap f)
  | [] => .nil
  | a :: rest => (h a).append (isInside_flatMap h rest)

theorem isInside_unitEscape (n : Nat) : IsInside (unitEscape n) := by
  have hunit := IsInside.unit (Text.length_hexPadded 4 n)
    (fun _ hd => mem_hexDigits_of_mem_hexPadded hd) .nil
  rwa [List.append_nil] at hunit

theorem mem_escapeLetters {e c : Char} (h : simpleEscape? e = some c) : e ∈ escapeLetters := by
  revert h
  fun_cases simpleEscape? e with
  | case9 => exact fun h => nomatch h
  | _ => exact fun _ => by decide

theorem isInside_charEscape (c : Char) : IsInside (charEscape c) := by
  rcases charEscape_cases c with ⟨e, -, hread, -, -, h⟩ | ⟨hquote, hslash, hlow, -, h⟩ | ⟨-, h⟩ |
    ⟨n, -, h⟩
  · exact h ▸ .escape (mem_escapeLetters hread) .nil
  · exact h ▸ .char hlow hquote hslash .nil
  · exact h ▸ isInside_unitEscape _
  · exact h ▸ (isInside_unitEscape _).append (isInside_unitEscape _)

theorem isInside_pointEscape : ∀ p : Text.Point, IsInside (pointEscape p)
  | .char c => isInside_charEscape c
  | .half n => isInside_unitEscape n

/-- **Every text is written as a string.** -/
theorem isQuoted_stringChars (s : String) : IsQuoted (stringChars s) :=
  .quotes (isInside_flatMap isInside_charEscape s.toList)

theorem isQuoted_pointsChars (ps : List Text.Point) : IsQuoted (pointsChars ps) := by
  rw [pointsChars_eq]
  exact .quotes (isInside_flatMap isInside_pointEscape ps)

/-! ## Numbers that are written -/

theorem isWhole_toDigits (n : Nat) : IsWhole (Nat.toDigits 10 n) := by
  rcases Nat.eq_zero_or_pos n with rfl | hn
  · exact .zero
  · have hdigits := digits_toDigits n
    obtain ⟨c, ds, hds, hc⟩ := toDigits_eq_cons hn
    rw [hds] at hdigits ⊢
    obtain ⟨hfirst, hrest⟩ := List.forall_mem_cons.1 hdigits
    exact .digits hfirst hc hrest

theorem isNumeral_toString (n : Int) : IsNumeral (toString n).toList := by
  cases n with
  | ofNat n =>
      have hnumeral := IsNumeral.unsigned (isWhole_toDigits n) .none .none
      rw [List.append_nil, List.append_nil] at hnumeral
      rwa [toList_toString_ofNat]
  | negSucc n =>
      have hnumeral := IsNumeral.negative (isWhole_toDigits (n + 1)) .none .none
      rw [List.append_nil, List.append_nil] at hnumeral
      rwa [toList_toString_negSucc]

theorem isNumeral_floatChars {x : Float} (h : x.isFinite) : IsNumeral (floatChars x) :=
  isNumeral_of_takeNumber (takeNumber_float h (readsBack_of_isFinite h))

/-! ## Data that are written -/

section Written

variable (l : Layout)

theorem isValue_scalarChars {d : Datum} (h : ∀ x ∈ d.floats, x.isFinite) :
    IsValue (scalarChars d) := by
  cases d with
  | null => exact .null
  | bool b =>
      cases b with
      | true => exact .true
      | false => exact .false
  | number n =>
      cases n with
      | int n => exact .number (isNumeral_toString n)
      | float x => exact .number (isNumeral_floatChars (h x List.mem_cons_self))
      | ratio q => exact .string (isQuoted_stringChars _)
  | text s => exact .string (isQuoted_stringChars s)
  | torn ps => exact .string (isQuoted_pointsChars ps)
  | list items => exact .null
  | record fields => exact .null

theorem blanks_nil : Blanks [] := List.forall_mem_nil _

mutual

/-- **Data without other doubles than finite ones are written as a value.** -/
theorem isValue_data : ∀ (d : Datum) (level : Nat), (∀ x ∈ d.floats, x.isFinite) →
    IsValue (l.data level d)
  | .null, _, h | .bool _, _, h | .number _, _, h | .text _, _, h | .torn _, _, h =>
      isValue_scalarChars h
  | .list [], _, _ => .emptyArray blanks_nil
  | .list (d :: rest), level, h => by
      have hitems := areItems_items (d :: rest) (level + 1) (List.cons_ne_nil d rest) h
        (l.blanks_opening (level + 1)) (l.blanks_closing level)
      have hvalue := IsValue.array hitems
      rw [Layout.data]
      simpa using hvalue
  | .record [], _, _ => .emptyObject blanks_nil
  | .record (f :: rest), level, h => by
      have hfields := areMembers_fields (f :: rest) (level + 1) (List.cons_ne_nil f rest) h
        (l.blanks_opening (level + 1)) (l.blanks_closing level)
      have hvalue := IsValue.object hfields
      rw [Layout.data]
      simpa using hvalue

theorem areItems_items : ∀ (items : List Datum) (level : Nat) {w w' : List Char}, items ≠ [] →
    (∀ x ∈ Datum.floatsOfItems items, x.isFinite) → Blanks w → Blanks w' →
    AreItems (w ++ (l.items level items ++ w'))
  | [], _, _, _, hne, _, _, _ => absurd rfl hne
  | [d], level, _, _, _, h, hw, hw' => by
      have hd := isValue_data d level (List.forall_mem_append.1 h).1
      exact .last hw hd hw'
  | d :: e :: rest, level, _, _, _, h, hw, hw' => by
      obtain ⟨hd, hrest⟩ := List.forall_mem_append.1 h
      have hrest := areItems_items (e :: rest) level (List.cons_ne_nil e rest) hrest
        (l.blanks_between level) hw'
      have hitems := AreItems.cons hw (isValue_data d level hd) blanks_nil hrest
      rw [Layout.items_cons_cons]
      simpa using hitems

theorem areMembers_fields : ∀ (fields : Fields) (level : Nat) {w w' : List Char}, fields ≠ [] →
    (∀ x ∈ Datum.floatsOfFields fields, x.isFinite) → Blanks w → Blanks w' →
    AreMembers (w ++ (l.fields level fields ++ w'))
  | [], _, _, _, hne, _, _, _ => absurd rfl hne
  | [(name, d)], level, _, _, _, h, hw, hw' => by
      have hd := isValue_data d level (List.forall_mem_append.1 h).1
      have hfields := AreMembers.last hw (isQuoted_stringChars name) blanks_nil
        (oneLine.blanks_between 0) hd hw'
      rw [Layout.fields]
      simpa [oneLine] using hfields
  | (name, d) :: f :: rest, level, _, _, _, h, hw, hw' => by
      obtain ⟨hd, hrest⟩ := List.forall_mem_append.1 h
      have hrest := areMembers_fields (f :: rest) level (List.cons_ne_nil f rest) hrest
        (l.blanks_between level) hw'
      have hfields := AreMembers.cons hw (isQuoted_stringChars name) blanks_nil
        (oneLine.blanks_between 0) (isValue_data d level hd) blanks_nil hrest
      rw [Layout.fields_cons_cons]
      simpa [oneLine] using hfields

end

end Written

end Calculator.Json
