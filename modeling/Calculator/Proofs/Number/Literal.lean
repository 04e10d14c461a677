import Calculator.Number.Reader
import Calculator.Proofs.Number.Finite
import Calculator.Proofs.Source.Items

/-!
# Literals

Every number that the scan cuts off a text can be read as a double (`readFloat_cutNumber`), since
its parts are those of a decimal number. The double is not NaN, so it is infinite unless it is
finite.
-/

set_option autoImplicit false

namespace Calculator

/-! ## Reading the parts -/

theorem IsExponent.noDigitFirst {s : List Char} (h : IsExponent s) : NoDigitFirst s := by
  intro c hc
  cases h with
  | none => cases hc
  | unsigned hmark _ _ =>
      obtain rfl := Option.some.inj hc
      exact not_isDigit_of_isExponentMark hmark
  | signed hmark _ _ _ =>
      obtain rfl := Option.some.inj hc
      exact not_isDigit_of_isExponentMark hmark

theorem takeSign_of_digits {s : List Char} (hs : Digits s) : takeSign s = (false, s) := by
  unfold takeSign
  split
  · exact absurd (hs '-' List.mem_cons_self) (by decide)
  · exact absurd (hs '+' List.mem_cons_self) (by decide)
  · rfl

/-- An exponent that is there can be read: a mark, and digits behind the sign. -/
theorem IsExponent.eq_cons {s : List Char} (h : IsExponent s) :
    s = [] ∨ ∃ mark rest, s = mark :: rest ∧ (mark = 'e' ∨ mark = 'E') ∧
      (takeSign rest).2 ≠ [] ∧ (takeSign rest).2.all Char.isDigit := by
  have hmarks {mark : Char} (hmark : isExponentMark mark) : mark = 'e' ∨ mark = 'E' :=
    (Bool.or_eq_true_iff.1 hmark).imp of_decide_eq_true of_decide_eq_true
  cases h with
  | none => exact Or.inl rfl
  | @unsigned mark ds hmark hne hds =>
      refine Or.inr ⟨mark, ds, rfl, hmarks hmark, ?_⟩
      rw [takeSign_of_digits hds]
      exact ⟨hne, List.all_eq_true.2 hds⟩
  | @signed mark sign ds hmark hsign hne hds =>
      refine Or.inr ⟨mark, sign :: ds, rfl, hmarks hmark, ?_⟩
      have hrest : (takeSign (sign :: ds)).2 = ds := by
        rcases Bool.or_eq_true_iff.1 hsign with h | h
        · obtain rfl := of_decide_eq_true h
          rfl
        · obtain rfl := of_decide_eq_true h
          rfl
      rw [hrest]
      exact ⟨hne, List.all_eq_true.2 hds⟩

/-- Digits, a fraction and an exponent are a decimal number. -/
theorem decimalText?_isSome {ds fraction exponent : List Char} (hne : ds ≠ []) (hds : Digits ds)
    (hf : IsFraction fraction) (he : IsExponent exponent) :
    ∃ d, decimalText? (ds ++ (fraction ++ exponent)) = some d := by
  have hexponent := he.noDigitFirst
  have hnodigit : NoDigitFirst (fraction ++ exponent) := by
    cases hf with
    | none => exact hexponent
    | digits _ =>
        intro c hc
        obtain rfl := Option.some.inj hc
        decide
  -- the first digits end where the fraction or the exponent starts
  obtain ⟨htake, hdrop⟩ := hds.takeWhile_append hnodigit
  rw [decimalText?]
  simp only [htake, hdrop]
  cases hf with
  | none =>
      rcases he.eq_cons with rfl | ⟨mark, rest, rfl, hmark, hdigits⟩
      · simp [hne]
      · rcases hmark with rfl | rfl
        · simp [hne, hdigits]
        · simp [hne, hdigits]
  | digits hplaces =>
      -- and the places where the exponent starts
      obtain ⟨htake', hdrop'⟩ := hplaces.takeWhile_append hexponent
      simp only [List.cons_append, htake', hdrop']
      rcases he.eq_cons with rfl | ⟨mark, rest, rfl, hmark, hdigits⟩
      · simp [hne]
      · rcases hmark with rfl | rfl
        · simp [hne, hdigits]
        · simp [hne, hdigits]

/-! ## Reading a number -/

theorem toNat_of_isDigit {c : Char} (h : c.isDigit) : 48 ≤ c.toNat ∧ c.toNat ≤ 57 := by
  obtain ⟨hlow, hhigh⟩ := Bool.and_eq_true_iff.1 h
  exact ⟨UInt32.le_iff_toNat_le.1 (of_decide_eq_true hlow),
    UInt32.le_iff_toNat_le.1 (of_decide_eq_true hhigh)⟩

/-- The characters of numbers are plain, no blanks and no underscores. -/
theorem plain_of_isNumeric {c : Char} (h : isNumeric c) :
    plainChar c = c ∧ Text.isAsciiBlank c = false ∧ c ≠ '_' := by
  rcases Bool.or_eq_true_iff.1 h with hdigit | h
  · -- digits lie behind the blanks and among the plain characters
    obtain ⟨hlow, hhigh⟩ := toNat_of_isDigit hdigit
    refine ⟨?_, ?_, ?_⟩
    · rw [plainChar, if_pos (by omega)]
    · refine Bool.or_eq_false_iff.2 ⟨?_, ?_⟩
      · apply decide_eq_false
        rintro rfl
        exact absurd hdigit (by decide)
      · apply Bool.eq_false_iff.2
        intro hblank
        have hcr : c ≤ '\r' := of_decide_eq_true (Bool.and_eq_true_iff.1 hblank).2
        have hle : c.toNat ≤ 13 := UInt32.le_iff_toNat_le.1 hcr
        omega
    · rintro rfl
      exact absurd hdigit (by decide)
  · have hcases : c = '.' ∨ (c = 'e' ∨ c = 'E') ∨ c = '+' ∨ c = '-' := by
      simpa [isExponentMark, isSign] using h
    obtain rfl | (rfl | rfl) | rfl | rfl := hcases <;> decide

/-- Nothing is dropped from a text without underscores. -/
theorem dropUnderscores_of_notMem {s : List Char} :
    ∀ b, '_' ∉ s → dropUnderscores b s = some s := by
  induction s with
  | nil =>
      intro b _
      cases b <;> rfl
  | cons c s ih =>
      intro b h
      have hc : c ≠ '_' := fun hc => h (hc ▸ List.mem_cons_self)
      have hs : '_' ∉ s := fun hs => h (List.mem_cons_of_mem _ hs)
      have hcons : dropUnderscores b (c :: s) = (dropUnderscores c.isDigit s).map (c :: ·) := by
        rw [dropUnderscores.eq_def]
        split
        · rename_i heq
          cases heq
        · rename_i heq
          exact absurd (List.cons.inj heq).1 hc
        · rename_i heq
          obtain ⟨rfl, rfl⟩ := List.cons.inj heq
          exact if_neg hc
      rw [hcons, ih c.isDigit hs]
      rfl

theorem dropWhile_of_all {p : Char → Bool} {s : List Char} (h : ∀ c ∈ s, p c = false) :
    s.dropWhile p = s := by
  cases s with
  | nil => rfl
  | cons c s => exact List.dropWhile_cons_of_neg (Bool.eq_false_iff.1 (h c List.mem_cons_self))

theorem plainText_of_isNumeric {s : List Char} (h : ∀ c ∈ s, isNumeric c) :
    plainText (String.ofList s) = s := by
  have hplain : s.map plainChar = s := by
    apply (List.map_congr_left fun c hc => (plain_of_isNumeric (h c hc)).1).trans
    exact List.map_id' s
  have hblank : ∀ c ∈ s, Text.isAsciiBlank c = false :=
    fun c hc => (plain_of_isNumeric (h c hc)).2.1
  have hreverse : ∀ c ∈ s.reverse, Text.isAsciiBlank c = false :=
    fun c hc => hblank c (List.mem_reverse.1 hc)
  rw [plainText, String.toList_ofList, hplain, dropWhile_of_all hblank,
    dropWhile_of_all hreverse, List.reverse_reverse]

/-- A text that starts with a digit is no word. -/
theorem ofList_toLower_ne {c : Char} (hc : c.isDigit) (s : List Char) (word : String)
    (hword : (word.toList.headD c).isDigit = false) :
    String.ofList ((c :: s).map Char.toLower) ≠ word := by
  rintro rfl
  rw [String.toList_ofList] at hword
  obtain ⟨hlow, hhigh⟩ := toNat_of_isDigit hc
  have hsame : c.toLower = c := by
    apply dif_neg
    rintro ⟨hupper, -⟩
    have hle : 65 ≤ c.toNat := UInt32.le_iff_toNat_le.1 hupper
    omega
  have hfirst : c.toLower.isDigit = false := hword
  rw [hsame, hc] at hfirst
  cases hfirst

/-- A decimal number is not NaN as a double. -/
theorem isNaN_toFloat_decimalText (d : DecimalText) : d.toFloat.isNaN = false := by
  unfold DecimalText.toFloat floatOfDecimal
  split
  · decide +kernel
  · split
    · exact isNaN_ofScientific _ _ _
    · exact isNaN_ofScientific _ _ _

/-- **Every number of the scan can be read as a double**, which is not NaN. -/
theorem readFloat_cutNumber {c : Char} (hc : c.isDigit) (s : List Char) :
    ∃ x, readFloat (String.ofList (cutNumber (c :: s)).1) = .ok x ∧ x.isNaN = false := by
  have hnumeric : ∀ c' ∈ (cutNumber (c :: s)).1, isNumeric c' := isNumeric_cutNumber
  have hunderscore : '_' ∉ (cutNumber (c :: s)).1 :=
    fun hmem => (plain_of_isNumeric (hnumeric _ hmem)).2.2 rfl
  have hne : (c :: s).takeWhile Char.isDigit ≠ [] := cut_fst_ne_nil hc s
  have hparts := decimalText?_isSome hne (digits_takeWhile _)
    (isFraction_cutFraction ((c :: s).dropWhile Char.isDigit))
    (isExponent_cutExponent (cutFraction ((c :: s).dropWhile Char.isDigit)).2)
  obtain ⟨d, hd⟩ := hparts
  have hnumber : (cutNumber (c :: s)).1 = (c :: s).takeWhile Char.isDigit ++
      ((cutFraction ((c :: s).dropWhile Char.isDigit)).1 ++
        (cutExponent (cutFraction ((c :: s).dropWhile Char.isDigit)).2).1) := by
    simp only [cutNumber, cut, List.append_assoc]
  rw [← hnumber] at hd
  -- the text starts with a digit: it has no sign, and it is none of the words for special values
  obtain ⟨rest, hrest⟩ : ∃ rest, (cutNumber (c :: s)).1 = c :: rest := by
    rw [hnumber, List.takeWhile_cons_of_pos hc]
    exact ⟨_, rfl⟩
  refine ⟨d.toFloat, ?_, isNaN_toFloat_decimalText d⟩
  have hsign : takeSign (cutNumber (c :: s)).1 = (false, (cutNumber (c :: s)).1) := by
    rw [hrest]
    unfold takeSign
    split
    · rename_i heq
      obtain rfl := (List.cons.inj heq).1
      exact absurd hc (by decide)
    · rename_i heq
      obtain rfl := (List.cons.inj heq).1
      exact absurd hc (by decide)
    · rfl
  have hvalue : floatValue? (cutNumber (c :: s)).1 = some d.toFloat := by
    have hinf := ofList_toLower_ne hc rest "inf" rfl
    have hinfinity := ofList_toLower_ne hc rest "infinity" rfl
    have hnan := ofList_toLower_ne hc rest "nan" rfl
    rw [← hrest] at hinf hinfinity hnan
    unfold floatValue?
    dsimp only
    rw [if_neg (not_or.2 ⟨hinf, hinfinity⟩), if_neg hnan,
      dropUnderscores_of_notMem false hunderscore]
    simp only [hd, Option.map_some]
  rw [readFloat, plainText_of_isNumeric hnumeric, hsign]
  simp only [hvalue]
  rfl

end Calculator
