import Calculator.Proofs.Json.Grammar

/-!
# Words beyond the grammar of JSON

Data are written with words for NaN and for the infinite values, which the grammar of JSON does not
have. So data are a text of the grammar, in any layout, exactly if all of their doubles are finite
(`isDocument_iff`).

That the words are no part of the grammar is seen from the characters outside of strings
(`Outside`): in the grammar they are those of numbers, blanks, punctuation and three words
(`isToken`).
-/

set_option autoImplicit false

namespace Calculator.Json

/-! ## Outside of strings -/

/-- The characters outside of strings. The first argument tells whether the text starts inside of
one. -/
def unquoted : Bool → List Char → List Char
  | _, [] => []
  | false, c :: s => if c = '"' then unquoted true s else c :: unquoted false s
  | true, c :: s =>
    if c = '"' then unquoted false s
    else if c = '\\' then unquoted true s.tail
    else unquoted true s
termination_by _ s => s.length

/-- Outside of the strings of a text there are just these characters, and the text ends there. -/
def Outside (s out : List Char) : Prop := ∀ t, unquoted false (s ++ t) = out ++ unquoted false t

namespace Outside

variable {s t out out' : List Char}

theorem nil : Outside [] [] := fun _ => rfl

theorem append (hs : Outside s out) (ht : Outside t out') : Outside (s ++ t) (out ++ out') := by
  intro u
  rw [List.append_assoc, hs, ht, List.append_assoc]

/-- A character that is no quote stands outside. -/
theorem cons {c : Char} (hc : c ≠ '"') (hs : Outside s out) : Outside (c :: s) (c :: out) := by
  intro t
  rw [List.cons_append, unquoted, if_neg hc, hs, List.cons_append]

/-- Without quotes everything stands outside. -/
theorem of_notMem : ∀ {s : List Char}, '"' ∉ s → Outside s s
  | [], _ => nil
  | _ :: _, h => cons (List.ne_of_not_mem_cons h).symm (of_notMem (List.not_mem_of_not_mem_cons h))

theorem unique (h : Outside s out) (h' : Outside s out') : out = out' := by
  have hsame := (h []).symm.trans (h' [])
  rwa [unquoted, List.append_nil, List.append_nil] at hsame

theorem unquoted_hexDigits {ds : List Char} (h : ∀ d ∈ ds, d ∈ hexDigits) (s : List Char) :
    unquoted true (ds ++ s) = unquoted true s := by
  induction ds with
  | nil => rfl
  | cons d ds ih =>
      obtain ⟨hd, hds⟩ := List.forall_mem_cons.1 h
      have hquote : d ≠ '"' := fun heq => absurd (heq ▸ hd) (by decide)
      have hslash : d ≠ '\\' := fun heq => absurd (heq ▸ hd) (by decide)
      rw [List.cons_append, unquoted, if_neg hquote, if_neg hslash, ih hds]

theorem unquoted_isInside (h : IsInside s) (t : List Char) :
    unquoted true (s ++ '"' :: t) = unquoted false t := by
  induction h with
  | nil => rw [List.nil_append, unquoted, if_pos rfl]
  | char _ hquote hslash _ ih =>
      rw [List.cons_append, unquoted, if_neg hquote, if_neg hslash, ih]
  | escape _ _ ih =>
      rw [List.cons_append, unquoted, if_neg (by decide), if_pos rfl]
      exact ih
  | unit _ hdigits _ ih =>
      rw [List.cons_append, unquoted, if_neg (by decide), if_pos rfl, List.cons_append,
        List.tail_cons, List.append_assoc, unquoted_hexDigits hdigits, ih]

/-- **Nothing of a string stands outside of it.** -/
theorem of_isQuoted (h : IsQuoted s) : Outside s [] := by
  obtain ⟨h⟩ := h
  intro t
  rw [List.cons_append, List.append_assoc, unquoted, if_pos rfl]
  exact unquoted_isInside h t

end Outside

/-! ### Tokens of the grammar -/

/-- The characters that the grammar has outside of strings. -/
def isToken (c : Char) : Bool :=
  isNumeric c || isBlank c || "[]\x7b\x7d:,nulltruefalse".toList.contains c

/-- Outside of the strings of a text there are only characters that the grammar has there. -/
def HasTokens (s : List Char) : Prop := ∃ out, Outside s out ∧ ∀ c ∈ out, isToken c

namespace HasTokens

variable {s t : List Char}

theorem append (hs : HasTokens s) (ht : HasTokens t) : HasTokens (s ++ t) := by
  obtain ⟨out, hs, hout⟩ := hs
  obtain ⟨out', ht, hout'⟩ := ht
  exact ⟨out ++ out', hs.append ht, List.forall_mem_append.2 ⟨hout, hout'⟩⟩

theorem of_all (h : ∀ c ∈ s, isToken c) : HasTokens s := by
  have hquote : '"' ∉ s := fun hmem => absurd (h _ hmem) (by decide)
  exact ⟨s, .of_notMem hquote, h⟩

theorem of_literal (h : s.all isToken = true) : HasTokens s := of_all (List.all_eq_true.1 h)

theorem cons {c : Char} (hc : isToken c) (hs : HasTokens s) : HasTokens (c :: s) :=
  (of_all (List.forall_mem_singleton.2 hc)).append hs

theorem of_blanks (h : Blanks s) : HasTokens s :=
  of_all fun c hc => by simp [isToken, h c hc]

theorem of_isQuoted (h : IsQuoted s) : HasTokens s :=
  ⟨[], .of_isQuoted h, List.forall_mem_nil _⟩

end HasTokens

theorem isNumeric_digits {ds : List Char} (h : Digits ds) : ∀ c ∈ ds, isNumeric c :=
  fun c hc => isNumeric_of_isDigit (h c hc)

theorem IsWhole.isNumeric {s : List Char} (h : IsWhole s) : ∀ c ∈ s, isNumeric c := by
  cases h with
  | zero => exact List.forall_mem_singleton.2 rfl
  | digits hc _ hds => exact isNumeric_digits (hds.cons hc)

theorem IsPlaces.isNumeric {s : List Char} (h : IsPlaces s) : ∀ c ∈ s, isNumeric c := by
  cases h with
  | none => exact List.forall_mem_nil _
  | digits _ hds => exact List.forall_mem_cons.2 ⟨rfl, isNumeric_digits hds⟩

theorem isNumeric_exponent {s : List Char} (h : IsExponent s) : ∀ c ∈ s, isNumeric c := by
  have hmark {c : Char} (h : isExponentMark c) : isNumeric c := by
    simp only [isExponentMark, Bool.or_eq_true, decide_eq_true_eq] at h
    rcases h with rfl | rfl
    · rfl
    · rfl
  have hsign {c : Char} (h : isSign c) : isNumeric c := by
    simp only [isSign, Bool.or_eq_true, decide_eq_true_eq] at h
    rcases h with rfl | rfl
    · rfl
    · rfl
  cases h with
  | none => exact List.forall_mem_nil _
  | unsigned hm _ hds => exact List.forall_mem_cons.2 ⟨hmark hm, isNumeric_digits hds⟩
  | signed hm hs _ hds =>
      exact List.forall_mem_cons.2
        ⟨hmark hm, List.forall_mem_cons.2 ⟨hsign hs, isNumeric_digits hds⟩⟩

/-- A numeral has characters of numbers only. -/
theorem IsNumeral.isNumeric {s : List Char} (h : IsNumeral s) : ∀ c ∈ s, isNumeric c := by
  have hparts {whole places exponent : List Char} (hwhole : IsWhole whole)
      (hplaces : IsPlaces places) (hexponent : IsExponent exponent) :
      ∀ c ∈ whole ++ (places ++ exponent), Json.isNumeric c :=
    List.forall_mem_append.2 ⟨hwhole.isNumeric,
      List.forall_mem_append.2 ⟨hplaces.isNumeric, isNumeric_exponent hexponent⟩⟩
  cases h with
  | unsigned hwhole hplaces hexponent => exact hparts hwhole hplaces hexponent
  | negative hwhole hplaces hexponent =>
      exact List.forall_mem_cons.2 ⟨rfl, hparts hwhole hplaces hexponent⟩

-- The recursion is on the derivation: each rule of the grammar adds only tokens and strings.
mutual

theorem IsValue.hasTokens {s : List Char} : IsValue s → HasTokens s
  | .null | .true | .false => .of_literal rfl
  | .number h => .of_all fun c hc => by simp [isToken, h.isNumeric c hc]
  | .string h => .of_isQuoted h
  | .emptyArray hw | .emptyObject hw =>
      .cons (by decide) ((HasTokens.of_blanks hw).append (.of_literal rfl))
  | .array h => .cons (by decide) (h.hasTokens.append (.of_literal rfl))
  | .object h => .cons (by decide) (h.hasTokens.append (.of_literal rfl))

theorem AreItems.hasTokens {s : List Char} : AreItems s → HasTokens s
  | .last hw h hw' => (HasTokens.of_blanks hw).append (h.hasTokens.append (.of_blanks hw'))
  | .cons hw h hw' ht => (HasTokens.of_blanks hw).append
      (h.hasTokens.append ((HasTokens.of_blanks hw').append (.cons (by decide) ht.hasTokens)))

theorem AreMembers.hasTokens {s : List Char} : AreMembers s → HasTokens s
  | .last hw hname hw₁ hw₂ h hw' => (HasTokens.of_blanks hw).append
      ((HasTokens.of_isQuoted hname).append ((HasTokens.of_blanks hw₁).append
        (.cons (by decide) ((HasTokens.of_blanks hw₂).append
          (h.hasTokens.append (.of_blanks hw'))))))
  | .cons hw hname hw₁ hw₂ h hw' ht => (HasTokens.of_blanks hw).append
      ((HasTokens.of_isQuoted hname).append ((HasTokens.of_blanks hw₁).append
        (.cons (by decide) ((HasTokens.of_blanks hw₂).append
          (h.hasTokens.append ((HasTokens.of_blanks hw').append
            (.cons (by decide) ht.hasTokens)))))))

end

/-- **A text of the grammar has only tokens outside of its strings.** -/
theorem IsDocument.hasTokens {s : List Char} (h : IsDocument s) : HasTokens s := by
  obtain ⟨w, v, w', rfl, hw, hv, hw'⟩ := h
  exact (HasTokens.of_blanks hw).append (hv.hasTokens.append (.of_blanks hw'))

/-! ### Words beyond the grammar -/

/-- If the condition holds, a character that the grammar has not there stands outside of the strings
of a text. -/
def Betrays (p : Prop) (s : List Char) : Prop :=
  ∃ out, Outside s out ∧ (p → ∃ c ∈ out, isToken c = false)

namespace Betrays

variable {p q : Prop} {s t : List Char}

theorem append (hs : Betrays p s) (ht : Betrays q t) : Betrays (p ∨ q) (s ++ t) := by
  obtain ⟨out, hs, hout⟩ := hs
  obtain ⟨out', ht, hout'⟩ := ht
  refine ⟨out ++ out', hs.append ht, ?_⟩
  rintro (hp | hq)
  · obtain ⟨c, hc, hbad⟩ := hout hp
    exact ⟨c, List.mem_append_left out' hc, hbad⟩
  · obtain ⟨c, hc, hbad⟩ := hout' hq
    exact ⟨c, List.mem_append_right out hc, hbad⟩

theorem mono (h : Betrays p s) (himp : q → p) : Betrays q s := by
  obtain ⟨out, hs, hout⟩ := h
  exact ⟨out, hs, fun hq => hout (himp hq)⟩

/-- With tokens alone there is nothing to show. -/
theorem of_hasTokens (h : HasTokens s) (hp : ¬ p) : Betrays p s := by
  obtain ⟨out, hs, -⟩ := h
  exact ⟨out, hs, fun h => absurd h hp⟩

/-- Tokens before a text, and tokens behind it, change nothing. -/
theorem between {x y : List Char} (hs : Betrays p s) (hx : HasTokens x) (hy : HasTokens y) :
    Betrays p (x ++ (s ++ y)) :=
  ((of_hasTokens (p := False) hx id).append (hs.append (of_hasTokens (p := False) hy id))).mono
    fun hp => .inr (.inl hp)

theorem not_hasTokens (h : Betrays p s) (hp : p) : ¬ HasTokens s := by
  rintro ⟨out, hs, htokens⟩
  obtain ⟨out', hs', hbad⟩ := h
  obtain ⟨c, hc, hfalse⟩ := hbad hp
  rw [htokens c (hs.unique hs' ▸ hc)] at hfalse
  cases hfalse

end Betrays

/-- A double that is not finite shows in its word. -/
theorem betrays_floatChars (x : Float) : Betrays (¬ x.isFinite) (floatChars x) := by
  cases hx : x.isFinite with
  | true =>
      refine .of_hasTokens (.of_all fun c hc => ?_) (fun h => h rfl)
      simp [isToken, (isNumeral_floatChars hx).isNumeric c hc]
  | false =>
      refine ⟨floatChars x, .of_notMem ?_, fun _ => ?_⟩
      · rcases eq_ofUnpacked_of_not_finite hx with rfl | ⟨s, rfl⟩
        · decide
        · cases s with
          | positive => decide
          | negative => decide
      · rcases eq_ofUnpacked_of_not_finite hx with rfl | ⟨s, rfl⟩
        · exact ⟨'N', by decide, rfl⟩
        · cases s with
          | positive => exact ⟨'I', by decide, rfl⟩
          | negative => exact ⟨'I', by decide, rfl⟩

/-- Some of the doubles are not finite. -/
def HasOther (xs : List Float) : Prop := ∃ x ∈ xs, ¬ x.isFinite

theorem not_hasOther_nil : ¬ HasOther [] := fun ⟨_, hx, _⟩ => nomatch hx

theorem hasOther_append {xs ys : List Float} :
    HasOther (xs ++ ys) ↔ HasOther xs ∨ HasOther ys := by
  simp only [HasOther, List.mem_append, or_and_right, exists_or]

theorem betrays_numberChars (n : Number) :
    Betrays (HasOther (Datum.floats (.number n))) (numberChars n) := by
  cases n with
  | int n =>
      exact .of_hasTokens (IsValue.number (isNumeral_toString n)).hasTokens not_hasOther_nil
  | ratio q =>
      exact .of_hasTokens (IsValue.string (isQuoted_stringChars _)).hasTokens not_hasOther_nil
  | float x =>
      refine (betrays_floatChars x).mono ?_
      rintro ⟨y, hy, hother⟩
      obtain rfl := List.mem_singleton.1 hy
      exact hother

section Written

variable (l : Layout)

theorem hasTokens_opening {c : Char} (hc : isToken c) (level : Nat) :
    HasTokens (c :: l.opening level) :=
  .cons hc (.of_blanks (l.blanks_opening level))

theorem hasTokens_closing {c : Char} (hc : isToken c) (level : Nat) :
    HasTokens (l.closing level ++ [c]) :=
  (HasTokens.of_blanks (l.blanks_closing level)).append (.of_all (List.forall_mem_singleton.2 hc))

theorem hasTokens_comma (level : Nat) : HasTokens (',' :: l.between level) :=
  .cons (by decide) (.of_blanks (l.blanks_between level))

theorem hasTokens_name (name : String) : HasTokens (stringChars name ++ [':', ' ']) :=
  (HasTokens.of_isQuoted (isQuoted_stringChars name)).append (.of_literal rfl)

mutual

/-- **Data with a double that is not finite show it outside of strings.** -/
theorem betrays_data : ∀ (d : Datum) (level : Nat), Betrays (HasOther d.floats) (l.data level d)
  | .null, level | .bool _, level | .text _, level | .torn _, level | .list [], level
  | .record [], level => by
      refine .of_hasTokens (isValue_data l _ level ?_).hasTokens not_hasOther_nil
      exact List.forall_mem_nil _
  | .number n, _ => betrays_numberChars n
  | .list (d :: rest), level => by
      have hitems := betrays_items (d :: rest) (level + 1)
      have hall := hitems.between (hasTokens_opening l (c := '[') (by decide) (level + 1))
        (hasTokens_closing l (c := ']') (by decide) level)
      rw [Layout.data, Datum.floats]
      simpa using hall
  | .record (f :: rest), level => by
      have hfields := betrays_fields (f :: rest) (level + 1)
      have hall := hfields.between (hasTokens_opening l (c := '\x7b') (by decide) (level + 1))
        (hasTokens_closing l (c := '\x7d') (by decide) level)
      rw [Layout.data, Datum.floats]
      simpa using hall

theorem betrays_items : ∀ (items : List Datum) (level : Nat),
    Betrays (HasOther (Datum.floatsOfItems items)) (l.items level items)
  | [], _ => ⟨[], .nil, fun h => absurd h not_hasOther_nil⟩
  | [d], level => (betrays_data d level).mono fun h =>
      (hasOther_append.1 h).resolve_right not_hasOther_nil
  | d :: e :: rest, level => by
      have hrest := betrays_items (e :: rest) level
      have hcomma := hrest.between (hasTokens_comma l level) (.of_all (List.forall_mem_nil _))
      have hall := ((betrays_data d level).append hcomma).mono hasOther_append.1
      rw [Layout.items_cons_cons, Datum.floatsOfItems]
      simpa using hall

theorem betrays_fields : ∀ (fields : Fields) (level : Nat),
    Betrays (HasOther (Datum.floatsOfFields fields)) (l.fields level fields)
  | [], _ => ⟨[], .nil, fun h => absurd h not_hasOther_nil⟩
  | [(name, d)], level => by
      have hall := (betrays_data d level).between (hasTokens_name name)
        (.of_all (List.forall_mem_nil _))
      have hvalue := hall.mono fun h => (hasOther_append.1 h).resolve_right not_hasOther_nil
      rw [Layout.fields, Datum.floatsOfFields]
      simpa [Datum.floatsOfFields] using hvalue
  | (name, d) :: f :: rest, level => by
      have hrest := betrays_fields (f :: rest) level
      have hcomma := hrest.between (hasTokens_comma l level) (.of_all (List.forall_mem_nil _))
      have hvalue := (betrays_data d level).between (hasTokens_name name)
        (.of_all (List.forall_mem_nil _))
      have hall := (hvalue.append hcomma).mono hasOther_append.1
      rw [Layout.fields_cons_cons, Datum.floatsOfFields]
      simpa using hall

end

/-- **Data in a layout are a text of the grammar exactly if all of their doubles are finite**, with
blanks behind them or without. -/
theorem isDocument_iff (d : Datum) (level : Nat) {w : List Char} (hw : Blanks w) :
    IsDocument (l.data level d ++ w) ↔ ∀ x ∈ d.floats, x.isFinite := by
  constructor
  · intro hdocument
    by_contra hnot
    simp only [not_forall, exists_prop] at hnot
    have hbetrays := (betrays_data l d level).between (.of_all (List.forall_mem_nil _))
      (HasTokens.of_blanks hw)
    exact hbetrays.not_hasTokens hnot hdocument.hasTokens
  · intro hfinite
    exact ⟨[], _, w, rfl, blanks_nil, isValue_data l d level hfinite, hw⟩

end Written

end Calculator.Json
