import Calculator.Proofs.Json.Rules
import Calculator.Proofs.Json.Words

/-!
# Text in front of a record

A record that can be read alone cannot be read behind any other text (`read?_append_eq_none`), as
long as its first name starts with an ordinary character. Whatever the text in front has begun, the
reader comes to the record in one of two ways. It stands before the record, and then the record is
taken as a value with nothing behind it, so what has been begun is never closed. Or it is inside a
string, which the first quote of the record closes, and then the first name goes on where a
separator has to be. Records whose names start with small letters are written so
(`exists_compact_eq_named`).
-/

set_option autoImplicit false

namespace Calculator.Json

/-- A record with a name that starts with a character. -/
def named (c : Char) (k : List Char) : List Char := '\x7b' :: '"' :: c :: k

/-- A character that is no blank and none of those between values. -/
structure IsOrdinary (c : Char) : Prop where
  isBlank_eq : isBlank c = false
  ne_comma : c ≠ ','
  ne_colon : c ≠ ':'
  ne_bracket : c ≠ ']'
  ne_brace : c ≠ '\x7d'

/-- What is left of text in front of a record has the record in it, or is what is behind the first
quote of the record. -/
inductive Left (c : Char) (k : List Char) : List Char → Prop where
  | before (z : List Char) : Left c k (z ++ named c k)
  | inName : Left c k (c :: k)

section Joined

variable {c : Char} {k y t : List Char}

/-! ## Blanks and scalars -/

theorem skipBlanks_append_named (y : List Char) :
    skipBlanks (y ++ named c k) = skipBlanks y ++ named c k := by
  have hbrace : skipBlanks (named c k) = named c k := rfl
  rw [skipBlanks, List.dropWhile_append]
  split
  · rename_i hnil
    rw [skipBlanks, List.isEmpty_iff.1 hnil]
    exact hbrace
  · rfl

/-- What is taken without a brace is taken from the text in front. -/
theorem left_of_taken {w : List Char} (hw : '\x7b' ∉ w) (h : w ++ t = y ++ named c k) :
    ∃ z, t = z ++ named c k := by
  rcases List.append_eq_append_iff.1 h with ⟨z, -, hz⟩ | ⟨z, hz, hnamed⟩
  · exact ⟨z, hz⟩
  · cases z with
    | nil => exact ⟨[], hnamed.symm⟩
    | cons a z =>
        obtain rfl : '\x7b' = a := (List.cons.inj hnamed).1
        exact absurd (hz ▸ List.mem_append_right _ List.mem_cons_self) hw

theorem takeNumber_consumes {s : List Char} {n : Number} (h : takeNumber s = .ok (n, t)) :
    ∃ w, w ++ t = s ∧ ∀ c ∈ w, isNumeric c := by
  obtain ⟨whole, rest, hwhole, hplaces⟩ := takeNumber_eq_ok h
  obtain ⟨hbody, hisWhole⟩ := takeWhole?_eq_some hwhole
  obtain ⟨places, hisPlaces, hrest⟩ := exists_places rest
  obtain ⟨exponent, hexponent, hends⟩ := exists_exponent (takeFraction rest).2
  rw [← takePlaces_eq_ok hplaces] at hends
  have hsign : ∃ sign, s = sign ++ (takeMinus s).2 ∧ ∀ c ∈ sign, isNumeric c := by
    unfold takeMinus
    split
    · exact ⟨['-'], rfl, List.forall_mem_singleton.2 rfl⟩
    · exact ⟨[], rfl, List.forall_mem_nil _⟩
  obtain ⟨sign, hs, hsign⟩ := hsign
  refine ⟨sign ++ (whole ++ (places ++ exponent)), ?_, ?_⟩
  · rw [hs, hbody, hrest, hends]
    simp
  · exact isNumeric_append hsign
      (isNumeric_append hisWhole.isNumeric
        (isNumeric_append hisPlaces.isNumeric (isNumeric_exponent hexponent)))

theorem takeScalar_left {d : Datum} (h : takeScalar (y ++ named c k) = .ok (d, t)) :
    ∃ z, t = z ++ named c k := by
  have hwords : ∀ w ∈ words, '\x7b' ∉ w.1.toList := by decide
  unfold takeScalar at h
  split at h
  · rename_i r hword
    cases h
    obtain ⟨w, hw, hafter⟩ := List.exists_of_findSome?_eq_some hword
    obtain ⟨t', ht', hpair⟩ := Option.map_eq_some_iff.1 hafter
    cases hpair
    unfold afterWord? at ht'
    split at ht'
    · rename_i hprefix
      obtain ⟨rest, hrest⟩ := List.isPrefixOf_iff_prefix.1 hprefix
      obtain rfl := Option.some.inj ht'
      have hlength : w.1.length = w.1.toList.length := String.length_toList.symm
      rw [← hrest, hlength, List.drop_left]
      exact left_of_taken (hwords w hw) hrest
    · cases ht'
  · obtain ⟨⟨n, t'⟩, hnumber, hpair⟩ := exists_of_map_eq_ok h
    cases hpair
    obtain ⟨w, hsplit, hw⟩ := takeNumber_consumes hnumber
    exact left_of_taken (fun hbrace => Bool.false_ne_true (hw _ hbrace)) hsplit

/-! ## Strings -/

theorem forall_isSome_of_mapM {α β : Type} {f : α → Option β} {xs : List α} {ys : List β}
    (h : xs.mapM f = some ys) : ∀ x ∈ xs, (f x).isSome := by
  induction xs generalizing ys with
  | nil => exact List.forall_mem_nil _
  | cons x xs ih =>
      rw [List.mapM_cons] at h
      obtain ⟨y, hy, h⟩ := Option.bind_eq_some_iff.1 h
      obtain ⟨ys', hys, -⟩ := Option.bind_eq_some_iff.1 h
      exact List.forall_mem_cons.2 ⟨hy ▸ rfl, ih hys⟩

theorem takeUnit?_consumes {s : List Char} {n : Nat} (h : takeUnit? s = some (n, t)) :
    ∃ w, w ++ t = s ∧ '\x7b' ∉ w := by
  unfold takeUnit? at h
  split at h
  · rename_i a b d e s
    obtain ⟨ds, hds, hpair⟩ := Option.bind_eq_some_iff.1 h
    cases hpair
    refine ⟨[a, b, d, e], rfl, fun hbrace => ?_⟩
    -- a brace is no hexadecimal digit
    cases forall_isSome_of_mapM hds _ hbrace
  · cases h

theorem takeUnicode?_consumes {s : List Char} {p : Text.Point} (h : takeUnicode? s = some (p, t)) :
    ∃ w, w ++ t = s ∧ '\x7b' ∉ w := by
  obtain ⟨⟨high, s'⟩, hhigh, h⟩ := Option.bind_eq_some_iff.1 h
  obtain ⟨w, hsplit, hw⟩ := takeUnit?_consumes hhigh
  dsimp only at h
  split at h
  · split at h
    · rename_i low t' hlow
      obtain ⟨v, hrest, hv⟩ := takeUnit?_consumes hlow
      split at h
      · -- the second half of a pair has been taken too
        cases h
        refine ⟨w ++ ('\\' :: 'u' :: v), ?_, ?_⟩
        · rw [← hsplit, ← hrest]
          simp
        · simp [hw, hv]
      · cases h
        exact ⟨w, hsplit, hw⟩
    · cases h
      exact ⟨w, hsplit, hw⟩
  · cases h
    exact ⟨w, hsplit, hw⟩

theorem takePoint_consumes {s : List Char} {a : Char} {p : Text.Point}
    (h : takeString.takePoint a s = .ok (p, t)) : ∃ w, w ++ t = s ∧ '\x7b' ∉ w := by
  unfold takeString.takePoint at h
  split at h
  · cases h
    exact ⟨[], rfl, List.not_mem_nil⟩
  · split at h
    · rename_i s
      cases hunicode : takeUnicode? s with
      | none =>
          rw [hunicode] at h
          cases h
      | some r =>
          rw [hunicode] at h
          cases h
          obtain ⟨w, hsplit, hw⟩ := takeUnicode?_consumes hunicode
          refine ⟨'u' :: w, congrArg ('u' :: ·) hsplit, ?_⟩
          simp [hw]
    · rename_i e s hu
      cases hescape : simpleEscape? e with
      | none =>
          rw [hescape] at h
          cases h
      | some e' =>
          rw [hescape] at h
          cases h
          refine ⟨[e], rfl, fun hbrace => ?_⟩
          rw [← List.mem_singleton.1 hbrace] at hescape
          cases hescape
    · cases h

/-- A string that begins in front of a record ends there, or with the first quote of the record. -/
theorem takeString_left {fuel : Nat} {ps : List Text.Point}
    (h : takeString fuel (y ++ named c k) = .ok (ps, t)) : Left c k t := by
  induction fuel generalizing y ps with
  | zero => cases h
  | succ fuel ih =>
      cases y with
      | nil =>
          -- the brace is part of the string, and the quote behind it is its end
          cases fuel with
          | zero => cases h
          | succ fuel =>
              cases h
              exact .inName
      | cons a y =>
          rw [List.cons_append, takeString] at h
          split at h
          · cases h
            exact .before y
          · split at h
            · cases h
            · obtain ⟨⟨p, s⟩, hpoint, h⟩ := exists_of_bind_eq_ok h
              obtain ⟨⟨ps', t'⟩, hrest, h⟩ := exists_of_bind_eq_ok h
              cases h
              obtain ⟨w, hsplit, hw⟩ := takePoint_consumes hpoint
              obtain ⟨z, rfl⟩ := left_of_taken hw hsplit
              exact ih hrest

/-! ## Collections -/

/-- A separator that is found is one of the text in front. -/
theorem Left.behind {m : Char} (hm : m ∈ [',', ':', ']', '\x7d']) (hc : IsOrdinary c)
    (h : Left c k t) {t' : List Char} (ht : skipBlanks t = m :: t') :
    ∃ z, t' = z ++ named c k := by
  cases h with
  | before z =>
      rw [skipBlanks_append_named] at ht
      cases hz : skipBlanks z with
      | nil =>
          rw [hz] at ht
          obtain rfl : '\x7b' = m := (List.cons.inj ht).1
          simp at hm
      | cons a z' =>
          rw [hz] at ht
          exact ⟨z', (List.cons.inj ht).2.symm⟩
  | inName =>
      rw [skipBlanks_cons hc.isBlank_eq] at ht
      obtain rfl := (List.cons.inj ht).1
      simp [hc.ne_comma, hc.ne_colon, hc.ne_bracket, hc.ne_brace] at hm

theorem Left.skipBlanks_ne_nil (hc : IsOrdinary c) (h : Left c k t) : skipBlanks t ≠ [] := by
  cases h with
  | before z =>
      rw [skipBlanks_append_named]
      exact List.append_ne_nil_of_right_ne_nil _ (List.cons_ne_nil _ _)
  | inName =>
      rw [skipBlanks_cons hc.isBlank_eq]
      exact List.cons_ne_nil _ _

/-- Behind the record there is nothing that the reader would have to go on with. -/
def IsLast (c : Char) (k : List Char) : Prop :=
  ∀ levels fuel d t, takeValue levels fuel (named c k) = .ok (d, t) → skipBlanks t = []

/-- With some fuel the reader does not get past a record with anything that begins in front of
it. -/
structure StaysBefore (c : Char) (k : List Char) (fuel : Nat) : Prop where
  value {levels : Nat} {y t : List Char} {d : Datum} : y ≠ [] →
    takeValue levels fuel (y ++ named c k) = .ok (d, t) → Left c k t
  items {levels : Nat} {y t : List Char} {ds : List Datum} :
    takeItems levels fuel (y ++ named c k) = .ok (ds, t) → Left c k t
  fields {levels : Nat} {fields fs : Fields} {y t : List Char} :
    takeFields levels fuel fields (y ++ named c k) = .ok (fs, t) → Left c k t

theorem staysBefore_zero : StaysBefore c k 0 where
  value _ h := by
    rw [takeValue] at h
    cases h
  items h := by
    rw [takeItems] at h
    cases h
  fields h := by
    rw [takeFields] at h
    cases h

section Step

variable {fuel : Nat} (hc : IsOrdinary c) (ih : StaysBefore c k fuel)

include hc ih

theorem StaysBefore.value_succ {levels : Nat} {d : Datum} (hy : y ≠ [])
    (h : takeValue levels (fuel + 1) (y ++ named c k) = .ok (d, t)) : Left c k t := by
  obtain ⟨a, y, rfl⟩ := List.exists_cons_of_ne_nil hy
  have hclosed {m : Char} {t : List Char} (hm : m ∈ [',', ':', ']', '\x7d'])
      (ht : skipBlanks (y ++ named c k) = m :: t) : Left c k t := by
    obtain ⟨z, rfl⟩ := Left.behind hm hc (.before y) ht
    exact .before z
  cases takeValue_eq_ok_iff.1 h with
  | text hstring => exact takeString_left hstring
  | noItems _ hclose => exact hclosed (by simp) hclose
  | items _ _ hitems =>
      replace hitems : takeItems _ fuel (skipBlanks (y ++ named c k)) = _ := hitems
      rw [skipBlanks_append_named] at hitems
      exact ih.items hitems
  | noFields _ hclose => exact hclosed (by simp) hclose
  | fields _ _ hfields =>
      replace hfields : takeFields _ fuel [] (skipBlanks (y ++ named c k)) = _ := hfields
      rw [skipBlanks_append_named] at hfields
      exact ih.fields hfields
  | scalar _ hscalar =>
      obtain ⟨z, rfl⟩ := takeScalar_left (y := a :: y) hscalar
      exact .before z

variable (hlast : IsLast c k)

include hlast

/-- Behind a value inside a collection the collection goes on, so the value is not the record. -/
theorem StaysBefore.goesOn {levels : Nat} {d : Datum} {m : Char} {t' : List Char}
    (hm : m ∈ [',', ':', ']', '\x7d'])
    (h : takeValue levels fuel (y ++ named c k) = .ok (d, t)) (ht : skipBlanks t = m :: t') :
    ∃ z, t' = z ++ named c k := by
  refine Left.behind hm hc (ih.value ?_ h) ht
  rintro rfl
  cases (hlast _ _ _ _ h).symm.trans ht

theorem StaysBefore.items_succ {levels : Nat} {ds : List Datum}
    (h : takeItems levels (fuel + 1) (y ++ named c k) = .ok (ds, t)) : Left c k t := by
  cases takeItems_eq_ok_iff.1 h with
  | last hvalue hclose =>
      obtain ⟨z, rfl⟩ := ih.goesOn hc hlast (by simp) hvalue hclose
      exact .before z
  | more hvalue hcomma hitems =>
      obtain ⟨z, rfl⟩ := ih.goesOn hc hlast (by simp) hvalue hcomma
      rw [skipBlanks_append_named] at hitems
      exact ih.items hitems

theorem StaysBefore.fields_succ {levels : Nat} {fields fs : Fields}
    (h : takeFields levels (fuel + 1) fields (y ++ named c k) = .ok (fs, t)) : Left c k t := by
  cases y with
  | nil =>
      -- the record starts with a brace, and fields with a quote
      cases takeFields_eq_ok_iff.1 h
  | cons a y =>
      cases takeFields_eq_ok_iff.1 h with
      | last hstring hcolon hvalue hclose =>
          obtain ⟨z, rfl⟩ := Left.behind (by simp) hc (takeString_left hstring) hcolon
          rw [skipBlanks_append_named] at hvalue
          obtain ⟨z', rfl⟩ := ih.goesOn hc hlast (by simp) hvalue hclose
          exact .before z'
      | more hstring hcolon hvalue hcomma hrest =>
          obtain ⟨z, rfl⟩ := Left.behind (by simp) hc (takeString_left hstring) hcolon
          rw [skipBlanks_append_named] at hvalue
          obtain ⟨z', rfl⟩ := ih.goesOn hc hlast (by simp) hvalue hcomma
          rw [skipBlanks_append_named] at hrest
          exact ih.fields hrest

end Step

/-- **The reader does not get past a record** with anything that begins in front of it. -/
theorem staysBefore (hc : IsOrdinary c) (hlast : IsLast c k) (fuel : Nat) :
    StaysBefore c k fuel := by
  induction fuel with
  | zero => exact staysBefore_zero
  | succ fuel ih =>
      exact ⟨fun hy h => ih.value_succ hc hy h, fun h => ih.items_succ hc hlast h,
        fun h => ih.fields_succ hc hlast h⟩

end Joined

/-- A record that can be read alone is the last thing in its text, however it is come to. -/
theorem isLast_of_read {c : Char} {k : List Char} {d : Datum}
    (h : read (named c k) = .ok d) : IsLast c k := by
  obtain ⟨⟨d', rest⟩, hvalue, h⟩ := exists_of_bind_eq_ok h
  have hbrace : skipBlanks (named c k) = named c k := rfl
  rw [hbrace] at hvalue
  intro levels fuel d'' t htaken
  cases takeValue_unique htaken hvalue
  dsimp only at h
  split at h
  · assumption
  · cases h

/-- **A record that can be read cannot be read behind other text.** -/
theorem read?_append_eq_none {c a : Char} {k y : List Char} {d : Datum} (hc : IsOrdinary c)
    (hread : read (named c k) = .ok d) (ha : isBlank a = false) :
    read? (a :: (y ++ named c k)) = none := by
  have hlast := isLast_of_read hread
  cases hjoined : read (a :: (y ++ named c k)) with
  | error fault =>
      rw [read?, hjoined]
      rfl
  | ok d' =>
      obtain ⟨⟨d'', rest⟩, hvalue, h⟩ := exists_of_bind_eq_ok hjoined
      rw [skipBlanks_cons ha, ← List.cons_append] at hvalue
      have hleft := (staysBefore hc hlast _).value (List.cons_ne_nil a y) hvalue
      dsimp only at h
      rw [if_neg (hleft.skipBlanks_ne_nil hc)] at h
      cases h

/-! ## Records as they are written -/

/-- Whether a name starts with a small letter. -/
def startsSmall (name : String) : Bool := name.toList.head?.any Char.isLower

section Small

variable {c : Char} (h : c.isLower = true)

include h

theorem ne_of_isLower {d : Char} (hd : d.isLower = false) : c ≠ d := by
  rintro rfl
  exact Bool.false_ne_true (hd.symm.trans h)

theorem isOrdinary_of_isLower : IsOrdinary c where
  isBlank_eq := isBlank_eq_false rfl h
  ne_comma := ne_of_isLower h rfl
  ne_colon := ne_of_isLower h rfl
  ne_bracket := ne_of_isLower h rfl
  ne_brace := ne_of_isLower h rfl

/-- A small letter stands for itself in a string. -/
theorem charEscape_of_isLower : charEscape c = [c] := by
  have hbounds : ' ' ≤ c ∧ c ≤ '~' := by
    obtain ⟨hlow, hhigh⟩ := Bool.and_eq_true_iff.1 h
    exact ⟨Char.le_trans (by decide) (of_decide_eq_true hlow),
      Char.le_trans (of_decide_eq_true hhigh) (by decide)⟩
  rw [charEscape, if_neg (ne_of_isLower h rfl), if_neg (ne_of_isLower h rfl),
    if_neg (ne_of_isLower h rfl), if_neg (ne_of_isLower h rfl), if_neg (ne_of_isLower h rfl),
    if_neg (ne_of_isLower h rfl), if_neg (ne_of_isLower h rfl), if_pos hbounds]

end Small

theorem exists_stringChars_eq {name : String} (h : startsSmall name = true) :
    ∃ c k, IsOrdinary c ∧ stringChars name = '"' :: c :: k := by
  unfold startsSmall at h
  cases hname : name.toList with
  | nil =>
      rw [hname] at h
      cases h
  | cons c rest =>
      rw [hname] at h
      have hlower : c.isLower = true := h
      refine ⟨c, rest.flatMap charEscape ++ ['"'], isOrdinary_of_isLower hlower, ?_⟩
      rw [stringChars, hname, List.flatMap_cons, charEscape_of_isLower hlower]
      rfl

/-- A record whose names start with small letters is written with one of them at its start. -/
theorem exists_compact_eq_named {fields : Fields} (hne : fields ≠ [])
    (h : ∀ name ∈ fields.names, startsSmall name = true) :
    ∃ c k, IsOrdinary c ∧ compact (.record fields) = named c k := by
  obtain ⟨⟨name, d⟩, rest, rfl⟩ := List.exists_cons_of_ne_nil hne
  obtain ⟨c, k, hc, hname⟩ := exists_stringChars_eq (h name List.mem_cons_self)
  have hfields : ∃ t, compactFields ((name, d) :: rest) = stringChars name ++ t := by
    cases rest with
    | nil => exact ⟨_, rfl⟩
    | cons f rest =>
        rw [compactFields_cons_cons, List.append_assoc]
        exact ⟨_, rfl⟩
  obtain ⟨t, ht⟩ := hfields
  refine ⟨c, k ++ t ++ ['\x7d'], hc, ?_⟩
  rw [compact, ht, hname]
  rfl

end Calculator.Json
