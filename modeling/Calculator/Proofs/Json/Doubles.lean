import Calculator.Proofs.Json.Numbers
import Calculator.Proofs.Number.Nearest
import Calculator.Proofs.Number.Shortest

/-!
# JSON doubles

The text of a finite double is read as the same double (`takeNumber_floatText`), so each finite
double reads back (`readsBack_of_isFinite`). The text has the digits of the shortest decimal number
for the double, laid out with a point, with an exponent or with both, and in each layout it is read
as that number (`isDecimal_shortestChars`), which rounds to the double.
-/

set_option autoImplicit false

namespace Calculator.Json

open Decimal Float.Model

/-! ## Values of digits -/

theorem foldl_digits (ds : List Char) (n : Nat) :
    ds.foldl (fun n c => n * 10 + digitValue c) n = n * 10 ^ ds.length + natOfDigits ds := by
  induction ds generalizing n with
  | nil => simp [natOfDigits]
  | cons c ds ih =>
      rw [natOfDigits, List.foldl_cons, List.foldl_cons, ih, ih, List.length_cons, pow_succ]
      ring

theorem natOfDigits_append (ds ds' : List Char) :
    natOfDigits (ds ++ ds') = natOfDigits ds * 10 ^ ds'.length + natOfDigits ds' := by
  rw [natOfDigits, List.foldl_append, foldl_digits]
  rfl

theorem natOfDigits_zeros (k : Nat) : natOfDigits (List.replicate k '0') = 0 := by
  induction k with
  | zero => rfl
  | succ k ih =>
      rw [List.replicate_succ, ← List.singleton_append, natOfDigits_append, ih]
      simp [natOfDigits, digitValue]

/-- Zeros in front count nothing. -/
theorem natOfDigits_zeros_append (k : Nat) (ds : List Char) :
    natOfDigits (List.replicate k '0' ++ ds) = natOfDigits ds := by
  rw [natOfDigits_append, natOfDigits_zeros, Nat.zero_mul, Nat.zero_add]

/-- Each zero behind counts ten times. -/
theorem natOfDigits_append_zeros (ds : List Char) (k : Nat) :
    natOfDigits (ds ++ List.replicate k '0') = natOfDigits ds * 10 ^ k := by
  rw [natOfDigits_append, natOfDigits_zeros, List.length_replicate, Nat.add_zero]

theorem digits_zeros (k : Nat) : Digits (List.replicate k '0') := by
  intro c hc
  obtain rfl := List.eq_of_mem_replicate hc
  rfl

theorem digits_toDigits (n : Nat) : Digits (Nat.toDigits 10 n) :=
  isDigit_of_mem_toDigits

/-! ## Decimal numbers in their parts -/

theorem takeFraction_point {ds x : List Char} (hne : ds ≠ []) (hds : Digits ds)
    (hx : NoDigitFirst x) : takeFraction ('.' :: (ds ++ x)) = (ds, x) := by
  cases ds with
  | nil => exact absurd rfl hne
  | cons d ds =>
      obtain ⟨hd, hrest⟩ := List.forall_mem_cons.1 hds
      have hrest : Digits ds := hrest
      obtain ⟨htake, hdrop⟩ := hrest.takeWhile_append hx
      rw [List.cons_append, takeFraction, if_pos hd, htake, hdrop]

/-- The text of an exponent is read as the exponent. -/
theorem takeExponent_exponentChars (e : Int) :
    takeExponent ('e' :: exponentChars e) = (some e, []) := by
  have hdigits : Digits (paddedDigits 2 e.natAbs) :=
    (digits_zeros _).append (digits_toDigits _)
  have hvalue : natOfDigits (paddedDigits 2 e.natAbs) = e.natAbs :=
    (natOfDigits_zeros_append _ _).trans (natOfDigits_toDigits _)
  have hne : paddedDigits 2 e.natAbs ≠ [] := by
    intro hnil
    exact Nat.toDigits_ne_nil (List.append_eq_nil_iff.1 hnil).2
  have hsign : takeSign (exponentChars e) = (decide (e < 0), paddedDigits 2 e.natAbs) := by
    unfold exponentChars
    split
    · rename_i hneg
      exact Prod.ext (decide_eq_true hneg).symm rfl
    · rename_i hneg
      exact Prod.ext (decide_eq_false hneg).symm rfl
  obtain ⟨htake, hdrop⟩ := hdigits.takeWhile_append (s := []) fun _ hc => nomatch hc
  rw [List.append_nil] at htake hdrop
  unfold takeExponent
  dsimp only
  rw [if_pos (.inl rfl), hsign]
  dsimp only
  rw [htake, hdrop, if_neg hne, hvalue]
  congr 2
  by_cases hneg : e < 0
  · rw [decide_eq_true hneg]
    show -(e.natAbs : Int) = e
    omega
  · rw [decide_eq_false hneg]
    show (e.natAbs : Int) = e
    omega

/-- A text without a sign that is read as a decimal number of the given value, with nothing
left. -/
def IsDecimal (s : List Char) (v : ℚ) : Prop :=
  ∃ (n : Nat) (k : Int), (n * 10 ^ k : ℚ) = v ∧
    ∃ whole rest, takeWhole? s = some (whole, rest) ∧ ∀ negative, takePlaces negative whole rest =
      .ok (.float (Number.withSign negative (floatOfDecimal n k)), [])

theorem isDecimal_of_parts {s whole rest fraction rest' : List Char} {exponent : Option Int}
    (hwhole : takeWhole? s = some (whole, rest)) (hfraction : takeFraction rest = (fraction, rest'))
    (hexponent : takeExponent rest' = (exponent, []))
    (hparts : fraction = [] → exponent ≠ none) :
    IsDecimal s (natOfDigits (whole ++ fraction) * 10 ^ (exponent.getD 0 - fraction.length)) := by
  refine ⟨_, _, rfl, whole, rest, hwhole, fun negative => ?_⟩
  unfold takePlaces
  rw [hfraction, hexponent, if_neg fun h => hparts h.1 h.2]
  rfl

/-- A number with a point. -/
theorem isDecimal_point {s whole fraction : List Char}
    (hwhole : takeWhole? s = some (whole, '.' :: fraction)) (hne : fraction ≠ [])
    (hfraction : Digits fraction) :
    IsDecimal s (natOfDigits (whole ++ fraction) * 10 ^ (-fraction.length : Int)) := by
  have hpoint := takeFraction_point (x := []) hne hfraction fun _ hc => nomatch hc
  rw [List.append_nil] at hpoint
  have h := isDecimal_of_parts hwhole hpoint (rfl : takeExponent [] = (none, []))
    fun hnil => absurd hnil hne
  rw [Option.getD_none, Int.zero_sub] at h
  exact h

/-! ## Shortest decimal numbers -/

section Shortest

variable {c : Char} {ds : List Char} (hc : c.isDigit = true) (hzero : c ≠ '0') (hds : Digits ds)

include hc hds

/-- A number below one, with zeros behind the point. -/
theorem isDecimal_below (k : Nat) :
    IsDecimal ('0' :: '.' :: (List.replicate k '0' ++ c :: ds))
      (natOfDigits (c :: ds) * 10 ^ (-(k + (c :: ds).length : Nat) : Int)) := by
  have hne : List.replicate k '0' ++ c :: ds ≠ [] := by simp
  have h := isDecimal_point (s := '0' :: '.' :: (List.replicate k '0' ++ c :: ds)) rfl hne
    ((digits_zeros k).append (hds.cons hc))
  have hvalue : natOfDigits (['0'] ++ (List.replicate k '0' ++ c :: ds)) = natOfDigits (c :: ds) :=
    (natOfDigits_zeros_append 1 _).trans (natOfDigits_zeros_append k _)
  rw [hvalue, List.length_append, List.length_replicate] at h
  exact h

include hzero

/-- A number whose digits are split by the point. -/
theorem isDecimal_between {k : Nat} (hk : k < ds.length) :
    IsDecimal (c :: ds.take k ++ '.' :: ds.drop k)
      (natOfDigits (c :: ds) * 10 ^ (-(ds.length - k : Nat) : Int)) := by
  have htake : Digits (ds.take k) := fun c hc => hds c (List.mem_of_mem_take hc)
  have hdrop : Digits (ds.drop k) := fun c hc => hds c (List.mem_of_mem_drop hc)
  have hne : ds.drop k ≠ [] := by
    rw [Ne, List.drop_eq_nil_iff]
    omega
  have h := isDecimal_point (takeWhole?_cons hc hzero htake (x := '.' :: ds.drop k)
    fun _ hpoint => Option.some.inj hpoint ▸ rfl) hne hdrop
  rw [List.cons_append, List.take_append_drop, List.length_drop] at h
  exact h

/-- A whole number, with zeros in front of the point and one behind it. -/
theorem isDecimal_whole (k : Nat) :
    IsDecimal (c :: ds ++ List.replicate k '0' ++ ['.', '0'])
      (natOfDigits (c :: ds) * 10 ^ (k : Int)) := by
  have h := isDecimal_point (takeWhole?_cons hc hzero (hds.append (digits_zeros k))
    (x := ['.', '0']) fun _ hpoint => Option.some.inj hpoint ▸ rfl) (List.cons_ne_nil _ _)
    (digits_zeros 1)
  have hvalue : (natOfDigits (c :: (ds ++ List.replicate k '0') ++ ['0']) *
      10 ^ (-(1 : Nat) : Int) : ℚ) = natOfDigits (c :: ds) * 10 ^ (k : Int) := by
    have hzeros : c :: (ds ++ List.replicate k '0') ++ ['0'] =
        c :: ds ++ List.replicate (k + 1) '0' := by
      rw [List.replicate_succ', List.cons_append, List.cons_append, List.append_assoc]
    rw [hzeros, natOfDigits_append_zeros, zpow_neg, zpow_natCast, zpow_natCast, pow_succ]
    push_cast
    field_simp
  exact hvalue ▸ h

/-- A number with a point, wherever the point is. -/
theorem isDecimal_splitAtPoint {point exponent : Int}
    (hpoint : point = (ds.length + 1 : Nat) + exponent) :
    IsDecimal ((splitAtPoint (c :: ds) point).1 ++ '.' ::
        if (splitAtPoint (c :: ds) point).2.isEmpty then ['0']
        else (splitAtPoint (c :: ds) point).2)
      (natOfDigits (c :: ds) * 10 ^ exponent) := by
  unfold splitAtPoint
  split
  · rename_i hbelow
    have hfraction : (List.replicate (-point).toNat '0' ++ c :: ds).isEmpty = false := by simp
    have hexponent : (-((-point).toNat + (c :: ds).length : Nat) : Int) = exponent := by
      rw [List.length_cons]
      omega
    have h := isDecimal_below hc hds (-point).toNat
    rw [hexponent] at h
    dsimp only
    rw [hfraction]
    exact h
  · rename_i hbehind
    obtain ⟨k, hk⟩ : ∃ k : Nat, point.toNat = k + 1 := ⟨point.toNat - 1, by omega⟩
    rw [hk]
    show IsDecimal (c :: ds.take k ++ List.replicate (k + 1 - (ds.length + 1)) '0' ++
      '.' :: if (ds.drop k).isEmpty then ['0'] else ds.drop k) _
    rw [Nat.add_sub_add_right]
    by_cases hless : k < ds.length
    · have hdrop : (ds.drop k).isEmpty = false := by
        rw [List.isEmpty_eq_false_iff, Ne, List.drop_eq_nil_iff]
        omega
      have hexponent : (-(ds.length - k : Nat) : Int) = exponent := by omega
      have h := isDecimal_between hc hzero hds hless
      rw [hexponent] at h
      rw [hdrop, Nat.sub_eq_zero_of_le (Nat.le_of_lt hless), List.replicate_zero, List.append_nil]
      exact h
    · have hdrop : ds.drop k = [] := List.drop_eq_nil_iff.2 (Nat.le_of_not_lt hless)
      have hexponent : ((k - ds.length : Nat) : Int) = exponent := by omega
      have h := isDecimal_whole hc hzero hds (k - ds.length)
      rw [hexponent] at h
      rw [hdrop, List.take_of_length_le (Nat.le_of_not_lt hless)]
      exact h

/-- A number with an exponent. -/
theorem isDecimal_exponent (x : Int) :
    IsDecimal ([c] ++ (if ds.isEmpty then [] else '.' :: ds) ++ 'e' :: exponentChars x)
      (natOfDigits (c :: ds) * 10 ^ (x - ds.length)) := by
  have hmark {s : List Char} : NoDigitFirst ('e' :: s) :=
    fun _ hmark => Option.some.inj hmark ▸ rfl
  cases ds with
  | nil =>
      have hwhole := takeWhole?_cons hc hzero hds (x := 'e' :: exponentChars x) hmark
      exact isDecimal_of_parts hwhole (rfl : takeFraction _ = ([], _))
        (takeExponent_exponentChars x) fun _ hnone => nomatch hnone
  | cons d ds =>
      have hnone : Digits [] := List.forall_mem_nil _
      have hwhole := takeWhole?_cons hc hzero hnone
        (x := '.' :: (d :: ds ++ 'e' :: exponentChars x))
        fun _ hpoint => Option.some.inj hpoint ▸ rfl
      have hfraction := takeFraction_point (List.cons_ne_nil d ds) hds
        (x := 'e' :: exponentChars x) hmark
      exact isDecimal_of_parts hwhole hfraction (takeExponent_exponentChars x)
        fun _ hnone => nomatch hnone

end Shortest

/-- **The text of a decimal number is read as its value.** -/
theorem isDecimal_shortestChars {s : Scaled} (hs : 0 < s.digits) :
    IsDecimal (shortestChars s) s.value := by
  obtain ⟨c, ds, hds, hzero⟩ := toDigits_eq_cons hs
  have hdigits := digits_toDigits s.digits
  have hvalue := natOfDigits_toDigits s.digits
  have hpoint : s.point = (ds.length + 1 : Nat) + s.exponent := by
    unfold Scaled.point digitCount
    rw [hds, List.length_cons]
  rw [hds] at hdigits hvalue
  obtain ⟨hc, hrest⟩ := List.forall_mem_cons.1 hdigits
  have hrest : Digits ds := hrest
  unfold shortestChars Scaled.value
  dsimp only
  rw [digitChars, hds, ← hvalue]
  split
  · exact isDecimal_splitAtPoint hc hzero hrest hpoint
  · have h := isDecimal_exponent hc hzero hrest (s.point - 1)
    have hexponent : s.point - 1 - ds.length = s.exponent := by omega
    rw [hexponent] at h
    exact h

/-! ## Doubles -/

/-- A decimal number is read with a sign or without one. -/
theorem takeNumber_isDecimal {s : List Char} {v : ℚ} (h : IsDecimal s v) (negative : Bool) :
    ∃ (n : Nat) (k : Int), (n * 10 ^ k : ℚ) = v ∧
      takeNumber (if negative then '-' :: s else s) =
        .ok (.float (Number.withSign negative (floatOfDecimal n k)), []) := by
  obtain ⟨n, k, hvalue, whole, rest, hwhole, hplaces⟩ := h
  have hminus : takeMinus (if negative then '-' :: s else s) = (negative, s) := by
    cases negative with
    | true => rfl
    | false =>
        cases s with
        | nil => rfl
        | cons c s =>
            -- a minus would be no integer part
            have hc : c ≠ '-' := by
              rintro rfl
              cases hwhole
            simp [takeMinus, hc]
  refine ⟨n, k, hvalue, ?_⟩
  rw [takeNumber_eq, hminus, hwhole]
  exact hplaces negative

/-- A sign is put on a positive double. -/
theorem withSign_ofUnpacked (s : UnpackedFloat.Sign) {m : Nat} {e : Int} (h : IsCanonical m e) :
    Number.withSign (isMinus s) (ofUnpacked (.finite .positive m e h.pos)) =
      ofUnpacked (.finite s m e h.pos) := by
  cases s with
  | positive => rfl
  | negative =>
      show ofUnpacked (UnpackedFloat.neg
        (ofUnpacked (.finite .positive m e h.pos)).toModel.unpack) = _
      rw [unpack_ofUnpacked .positive h]
      rfl

theorem floatText_finite (s : UnpackedFloat.Sign) {m : Nat} {e : Int} (h : IsCanonical m e) :
    (floatText (ofUnpacked (.finite s m e h.pos))).toList =
      if isMinus s then '-' :: shortestChars (shortest m e) else shortestChars (shortest m e) := by
  obtain ⟨k, rfl⟩ := Nat.exists_eq_succ_of_ne_zero (Nat.ne_of_gt h.pos)
  unfold floatText
  rw [decode_finite s h]
  exact String.toList_ofList

/-- **The text of a finite double is read as the same double.** -/
theorem takeNumber_floatText {x : Float} (h : x.isFinite) :
    takeNumber (floatText x).toList = .ok (.float x, []) := by
  obtain ⟨s, rfl | ⟨m, e, hc, rfl⟩⟩ := eq_ofUnpacked_of_isFinite h
  · cases s with
    | negative => rfl
    | positive => rfl
  · obtain ⟨hdigits, hrounds⟩ := shortest_spec hc
    obtain ⟨n, k, hvalue, hnumber⟩ :=
      takeNumber_isDecimal (isDecimal_shortestChars hdigits) (isMinus s)
    rw [floatText_finite s hc, hnumber, floatOfDecimal_eq hc (hvalue ▸ hrounds),
      withSign_ofUnpacked s hc]

/-- **Each finite double reads back.** -/
theorem readsBack_of_isFinite {x : Float} (h : x.isFinite) : ReadsBack x := by
  have hnumber := takeNumber_floatText h
  have hscalar := takeScalar_append endsNumber_nil hnumber
  rw [List.append_nil, List.append_nil] at hscalar
  -- the words for other doubles are no numbers
  have hnumeric : ∀ c ∈ (floatText x).toList, isNumeric c = true := by
    refine (floatText_cases x).resolve_left fun hword => ?_
    simp only [List.mem_cons, List.not_mem_nil, or_false] at hword
    rcases hword with hword | hword | hword
    · rw [hword] at hnumber
      cases hnumber
    · rw [hword] at hnumber
      cases hnumber
    · rw [hword] at hnumber
      cases hnumber
  rw [ReadsBack, floatChars_of_isFinite h, read, skipBlanks_of_isNumeric hnumeric]
  generalize (floatText x).toList = s at hscalar hnumeric hnumber
  cases s with
  | nil => cases hnumber
  | cons c s =>
      rw [takeValue_of_isNumeric _ _ (hnumeric c List.mem_cons_self), hscalar]
      rfl

end Calculator.Json
