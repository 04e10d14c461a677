import Calculator.Json.Reader
import Calculator.Proofs.Results

/-!
# Steps of the JSON reader

What the reader takes as a value, as items and as fields, rule by rule (`takeValue_eq_ok_iff` and
the two beside it). By these rules what has been taken with some fuel and some levels of nesting is
taken with more of them (`staysTaken`), so what is left behind a value is the same with any that
suffice (`takeValue_unique`).
-/

set_option autoImplicit false

namespace Calculator.Json

variable {levels fuel : Nat}

/-! ## Rules -/

/-- One step of the reader for values, with fuel for the next one. -/
inductive TakesValue (levels fuel : Nat) : List Char → Datum → List Char → Prop where
  | text {s t ps} : takeString (s.length + 1) s = .ok (ps, t) →
      TakesValue levels fuel ('"' :: s) (.ofPoints ps) t
  | noItems {inner s t} : levels = inner + 1 → skipBlanks s = ']' :: t →
      TakesValue levels fuel ('[' :: s) (.list []) t
  | items {inner s t ds} : levels = inner + 1 → (∀ t', skipBlanks s ≠ ']' :: t') →
      takeItems inner fuel (skipBlanks s) = .ok (ds, t) →
      TakesValue levels fuel ('[' :: s) (.list ds) t
  | noFields {inner s t} : levels = inner + 1 → skipBlanks s = '\x7d' :: t →
      TakesValue levels fuel ('\x7b' :: s) (.record []) t
  | fields {inner s t fs} : levels = inner + 1 → (∀ t', skipBlanks s ≠ '\x7d' :: t') →
      takeFields inner fuel [] (skipBlanks s) = .ok (fs, t) →
      TakesValue levels fuel ('\x7b' :: s) (.record fs) t
  | scalar {s t d} : (∀ c ∈ s.head?, c ≠ '"' ∧ c ≠ '[' ∧ c ≠ '\x7b') →
      takeScalar s = .ok (d, t) → TakesValue levels fuel s d t

/-- One step of the reader for items. -/
inductive TakesItems (levels fuel : Nat) : List Char → List Datum → List Char → Prop where
  | last {s t t' d} : takeValue levels fuel s = .ok (d, t) → skipBlanks t = ']' :: t' →
      TakesItems levels fuel s [d] t'
  | more {s t t' t'' d ds} : takeValue levels fuel s = .ok (d, t) → skipBlanks t = ',' :: t' →
      takeItems levels fuel (skipBlanks t') = .ok (ds, t'') →
      TakesItems levels fuel s (d :: ds) t''

/-- One step of the reader for fields. -/
inductive TakesFields (levels fuel : Nat) (fields : Fields) :
    List Char → Fields → List Char → Prop where
  | last {s name t t' d t'' t'''} : takeString (s.length + 1) s = .ok (name, t) →
      skipBlanks t = ':' :: t' → takeValue levels fuel (skipBlanks t') = .ok (d, t'') →
      skipBlanks t'' = '\x7d' :: t''' →
      TakesFields levels fuel fields ('"' :: s) (fields.set (Text.mendedText name) d) t'''
  | more {s name t t' d t'' t''' fs rest} : takeString (s.length + 1) s = .ok (name, t) →
      skipBlanks t = ':' :: t' → takeValue levels fuel (skipBlanks t') = .ok (d, t'') →
      skipBlanks t'' = ',' :: t''' →
      takeFields levels fuel (fields.set (Text.mendedText name) d) (skipBlanks t''') =
        .ok (fs, rest) →
      TakesFields levels fuel fields ('"' :: s) fs rest

theorem enter_eq_ok {kind : String} {inner : Nat} (h : enter kind levels = .ok inner) :
    levels = inner + 1 := by
  cases levels with
  | zero => cases h
  | succ levels =>
      cases h
      rfl

/-- **A value is taken by one of the rules.** -/
theorem takeValue_eq_ok_iff {s t : List Char} {d : Datum} :
    takeValue levels (fuel + 1) s = .ok (d, t) ↔ TakesValue levels fuel s d t := by
  constructor
  · intro h
    unfold takeValue at h
    split at h
    · obtain ⟨⟨ps, t⟩, hstring, hpair⟩ := exists_of_map_eq_ok h
      cases hpair
      exact .text hstring
    · obtain ⟨inner, henter, h⟩ := exists_of_bind_eq_ok h
      split at h
      · rename_i hclose
        cases h
        exact .noItems (enter_eq_ok henter) hclose
      · rename_i hopen
        obtain ⟨⟨ds, t⟩, hitems, hpair⟩ := exists_of_map_eq_ok h
        cases hpair
        exact .items (enter_eq_ok henter) hopen hitems
    · obtain ⟨inner, henter, h⟩ := exists_of_bind_eq_ok h
      split at h
      · rename_i hclose
        cases h
        exact .noFields (enter_eq_ok henter) hclose
      · rename_i hopen
        obtain ⟨⟨fs, t⟩, hfields, hpair⟩ := exists_of_map_eq_ok h
        cases hpair
        exact .fields (enter_eq_ok henter) hopen hfields
    · rename_i hquote hbracket hbrace
      refine .scalar ?_ h
      intro c hc
      obtain ⟨rest, rfl⟩ : ∃ rest, s = c :: rest := by
        cases s with
        | nil => cases hc
        | cons c' rest =>
            obtain rfl := Option.some.inj hc
            exact ⟨rest, rfl⟩
      refine ⟨?_, ?_, ?_⟩
      · rintro rfl
        exact hquote _ rfl
      · rintro rfl
        exact hbracket _ rfl
      · rintro rfl
        exact hbrace _ rfl
  · intro h
    cases h with
    | text hstring =>
        simp only [takeValue, hstring]
        rfl
    | noItems hlevels hclose =>
        subst hlevels
        simp only [takeValue, enter, bind, Except.bind, hclose]
        rfl
    | items hlevels hopen hitems =>
        subst hlevels
        simp only [takeValue, enter, bind, Except.bind, hitems]
        rfl
    | noFields hlevels hclose =>
        subst hlevels
        simp only [takeValue, enter, bind, Except.bind, hclose]
        rfl
    | fields hlevels hopen hfields =>
        subst hlevels
        simp only [takeValue, enter, bind, Except.bind, hfields]
        rfl
    | scalar hhead hscalar =>
        unfold takeValue
        split
        · exact absurd rfl (hhead _ rfl).1
        · exact absurd rfl (hhead _ rfl).2.1
        · exact absurd rfl (hhead _ rfl).2.2
        · exact hscalar

/-- **Items are taken by one of the rules.** -/
theorem takeItems_eq_ok_iff {s t : List Char} {ds : List Datum} :
    takeItems levels (fuel + 1) s = .ok (ds, t) ↔ TakesItems levels fuel s ds t := by
  constructor
  · intro h
    rw [takeItems] at h
    obtain ⟨⟨d, t₁⟩, hvalue, h⟩ := exists_of_bind_eq_ok h
    dsimp only at h
    split at h
    · rename_i hclose
      cases h
      exact .last hvalue hclose
    · rename_i hcomma
      obtain ⟨⟨ds, t₂⟩, hitems, h⟩ := exists_of_bind_eq_ok h
      cases h
      exact .more hvalue hcomma hitems
    · cases h
  · intro h
    cases h with
    | last hvalue hclose =>
        simp only [takeItems, hvalue, bind, Except.bind, hclose]
        rfl
    | more hvalue hcomma hitems =>
        simp only [takeItems, hvalue, bind, Except.bind, hcomma, hitems]
        rfl

/-- **Fields are taken by one of the rules.** -/
theorem takeFields_eq_ok_iff {fields fs : Fields} {s t : List Char} :
    takeFields levels (fuel + 1) fields s = .ok (fs, t) ↔
      TakesFields levels fuel fields s fs t := by
  constructor
  · intro h
    unfold takeFields at h
    split at h
    · obtain ⟨⟨name, t₁⟩, hstring, h⟩ := exists_of_bind_eq_ok h
      dsimp only at h
      split at h
      · rename_i hcolon
        obtain ⟨⟨d, t₂⟩, hvalue, h⟩ := exists_of_bind_eq_ok h
        dsimp only at h
        split at h
        · rename_i hclose
          cases h
          exact .last hstring hcolon hvalue hclose
        · rename_i hcomma
          exact .more hstring hcolon hvalue hcomma h
        · cases h
      · cases h
    · cases h
  · intro h
    cases h with
    | last hstring hcolon hvalue hclose =>
        simp only [takeFields, hstring, bind, Except.bind, hcolon, hvalue, hclose]
        rfl
    | more hstring hcolon hvalue hcomma hrest =>
        simp only [takeFields, hstring, bind, Except.bind, hcolon, hvalue, hcomma, hrest]

/-! ## More fuel and more levels -/

/-- What is taken with some fuel is taken with more fuel and more levels. -/
structure StaysTaken (fuel : Nat) : Prop where
  value {levels levels' fuel' : Nat} {s : List Char} {r : Datum × List Char} :
    levels ≤ levels' → fuel ≤ fuel' →
      takeValue levels fuel s = .ok r → takeValue levels' fuel' s = .ok r
  items {levels levels' fuel' : Nat} {s : List Char} {r : List Datum × List Char} :
    levels ≤ levels' → fuel ≤ fuel' →
      takeItems levels fuel s = .ok r → takeItems levels' fuel' s = .ok r
  fields {levels levels' fuel' : Nat} {fields : Fields} {s : List Char} {r : Fields × List Char} :
    levels ≤ levels' → fuel ≤ fuel' →
      takeFields levels fuel fields s = .ok r → takeFields levels' fuel' fields s = .ok r

theorem staysTaken_zero : StaysTaken 0 where
  value _ _ h := by
    rw [takeValue] at h
    cases h
  items _ _ h := by
    rw [takeItems] at h
    cases h
  fields _ _ h := by
    rw [takeFields] at h
    cases h

section Step

variable {levels' fuel' : Nat} {s t : List Char} (ih : StaysTaken fuel) (hlevels : levels ≤ levels')
  (hfuel : fuel ≤ fuel')

include ih hlevels hfuel

theorem StaysTaken.value_succ {d : Datum} (h : takeValue levels (fuel + 1) s = .ok (d, t)) :
    takeValue levels' (fuel' + 1) s = .ok (d, t) := by
  -- there are levels inside if there were some before
  have hinside {inner : Nat} (hinner : levels = inner + 1) :
      ∃ inner', levels' = inner' + 1 ∧ inner ≤ inner' :=
    ⟨levels' - 1, by omega, by omega⟩
  rw [takeValue_eq_ok_iff] at h ⊢
  cases h with
  | text hstring => exact .text hstring
  | noItems hinner hclose =>
      obtain ⟨inner', hlevels', -⟩ := hinside hinner
      exact .noItems hlevels' hclose
  | items hinner hopen hitems =>
      obtain ⟨inner', hlevels', hle⟩ := hinside hinner
      exact .items hlevels' hopen (ih.items hle hfuel hitems)
  | noFields hinner hclose =>
      obtain ⟨inner', hlevels', -⟩ := hinside hinner
      exact .noFields hlevels' hclose
  | fields hinner hopen hfields =>
      obtain ⟨inner', hlevels', hle⟩ := hinside hinner
      exact .fields hlevels' hopen (ih.fields hle hfuel hfields)
  | scalar hhead hscalar => exact .scalar hhead hscalar

theorem StaysTaken.items_succ {ds : List Datum}
    (h : takeItems levels (fuel + 1) s = .ok (ds, t)) :
    takeItems levels' (fuel' + 1) s = .ok (ds, t) := by
  rw [takeItems_eq_ok_iff] at h ⊢
  cases h with
  | last hvalue hclose => exact .last (ih.value hlevels hfuel hvalue) hclose
  | more hvalue hcomma hitems =>
      exact .more (ih.value hlevels hfuel hvalue) hcomma (ih.items hlevels hfuel hitems)

theorem StaysTaken.fields_succ {fields fs : Fields}
    (h : takeFields levels (fuel + 1) fields s = .ok (fs, t)) :
    takeFields levels' (fuel' + 1) fields s = .ok (fs, t) := by
  rw [takeFields_eq_ok_iff] at h ⊢
  cases h with
  | last hstring hcolon hvalue hclose =>
      exact .last hstring hcolon (ih.value hlevels hfuel hvalue) hclose
  | more hstring hcolon hvalue hcomma hrest =>
      exact .more hstring hcolon (ih.value hlevels hfuel hvalue) hcomma
        (ih.fields hlevels hfuel hrest)

end Step

/-- **More fuel and more levels change nothing that is taken.** -/
theorem staysTaken (fuel : Nat) : StaysTaken fuel := by
  induction fuel with
  | zero => exact staysTaken_zero
  | succ fuel ih =>
      have hsome {fuel' : Nat} (hfuel : fuel + 1 ≤ fuel') : ∃ n, fuel' = n + 1 ∧ fuel ≤ n :=
        ⟨fuel' - 1, by omega, by omega⟩
      refine ⟨?_, ?_, ?_⟩
      · intro levels levels' fuel' s r hlevels hfuel h
        obtain ⟨n, rfl, hn⟩ := hsome hfuel
        exact ih.value_succ hlevels hn h
      · intro levels levels' fuel' s r hlevels hfuel h
        obtain ⟨n, rfl, hn⟩ := hsome hfuel
        exact ih.items_succ hlevels hn h
      · intro levels levels' fuel' fields s r hlevels hfuel h
        obtain ⟨n, rfl, hn⟩ := hsome hfuel
        exact ih.fields_succ hlevels hn h

/-- **What is left behind a value does not depend on fuel and levels**, as long as they suffice. -/
theorem takeValue_unique {levels' fuel' : Nat} {s : List Char} {r r' : Datum × List Char}
    (h : takeValue levels fuel s = .ok r) (h' : takeValue levels' fuel' s = .ok r') : r = r' := by
  have hmost := (staysTaken fuel).value (Nat.le_max_left levels levels')
    (Nat.le_max_left fuel fuel') h
  have hmost' := (staysTaken fuel').value (Nat.le_max_right levels levels')
    (Nat.le_max_right fuel fuel') h'
  exact Except.ok.inj (hmost.symm.trans hmost')

end Calculator.Json
