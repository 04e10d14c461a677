import Calculator.Number.Reader
import Calculator.Proofs.Number.Rounding

/-!
# Decimal numbers read as doubles

A decimal number is read as the double that it rounds to (`floatOfDecimal_eq`). Short numbers with
small exponents are read by one operation on two doubles that are exact, all others by the model of
doubles (`ofScientific_model_eq`).
-/

set_option autoImplicit false

namespace Calculator

open Float.Model

variable {m n : Nat} {e : Int}

/-! ## Decimal numbers in the model -/

/-- The exponent of a decimal number that rounds to a double is not too large. -/
theorem RoundsTo.exponent_le {x : Int} (hv : RoundsTo (n * 10 ^ x) m e) (hc : IsCanonical m e) :
    x ≤ 2 ^ 11 := by
  by_contra hx
  have hn : (1 : ℚ) ≤ n := by exact_mod_cast hv.pos hc
  have hpow : (2 : ℚ) ^ (1024 : Int) ≤ 10 ^ x :=
    (zpow_le_zpow_right₀ one_le_two (by omega)).trans
      (zpow_le_zpow_left₀ (by omega) two_pos.le (by norm_num))
  have hupper := (hv.upper hc).trans_le hpow
  exact absurd hupper (not_lt.2 (le_mul_of_one_le_left (by positivity) hn))

/-- The exponent of a decimal number that rounds to a double is not too small. -/
theorem RoundsTo.le_exponent {x : Int} (hv : RoundsTo (n * 10 ^ x) m e) (hc : IsCanonical m e) :
    -((2 ^ 11 : Int) + n.log2) ≤ x := by
  by_contra hx
  have hpow : (10 : ℚ) ^ x ≤ 2 ^ x := by
    have hinverse : (2 : ℚ) ^ (-x) ≤ 10 ^ (-x) :=
      zpow_le_zpow_left₀ (by omega) two_pos.le (by norm_num)
    rw [zpow_neg, zpow_neg] at hinverse
    exact (inv_le_inv₀ (by positivity) (by positivity)).1 hinverse
  have hbits : (n : ℚ) ≤ 2 ^ (n.log2 + 1) := by exact_mod_cast Nat.lt_log2_self.le
  have hvalue : (n * 10 ^ x : ℚ) < 2 ^ (-1075 : Int) :=
    calc (n * 10 ^ x : ℚ) ≤ 2 ^ (n.log2 + 1) * 2 ^ x :=
          mul_le_mul hbits hpow (by positivity) (by positivity)
      _ = 2 ^ ((n.log2 : Int) + 1 + x) := by
          rw [zpow_add₀ two_ne_zero]
          norm_cast
      _ < 2 ^ (-1075 : Int) := zpow_lt_zpow_right₀ one_lt_two (by omega)
  exact absurd (hv.lower hc) (not_le.2 hvalue)

/-- **A decimal number is rounded to the nearest double.** -/
theorem ofScientific_model_eq {x : Int} (hc : IsCanonical m e) (hv : RoundsTo (n * 10 ^ x) m e) :
    UnpackedFloat.ofScientific .binary64 n x = .finite .positive m e hc.pos := by
  have hpos := hv.pos hc
  have hlarge : ¬ x > 2 ^ 11 := not_lt.2 (hv.exponent_le hc)
  have hsmall : ¬ x < -((2 ^ 11 : Int) + n.log2) := not_lt.2 (hv.le_exponent hc)
  unfold UnpackedFloat.ofScientific
  rw [dif_neg (Nat.ne_of_gt hpos), if_neg hlarge, if_neg hsmall]
  by_cases hx : 0 ≤ x
  · obtain ⟨k, rfl⟩ := Int.eq_ofNat_of_zero_le hx
    have hbits : 2 ^ 52 ≤ n <<< 53 * 10 ^ k := by
      rw [Nat.shiftLeft_eq]
      calc 2 ^ 52 ≤ 1 * 2 ^ 53 * 1 := by norm_num
        _ ≤ n * 2 ^ 53 * 10 ^ k :=
          Nat.mul_le_mul (Nat.mul_le_mul_right _ hpos) (Nat.one_le_pow _ _ (by norm_num))
    rw [if_pos hx]
    refine mul_eq .positive .positive _ _ hbits hc ?_
    have hvalue : ((n <<< 53 : Nat) * 2 ^ (-(53 : Nat) : Int) *
        ((10 ^ k : Nat) * 2 ^ (0 : Int)) : ℚ) = n * 10 ^ (k : Int) := by
      rw [Nat.shiftLeft_eq, zpow_neg, zpow_natCast, zpow_natCast, zpow_zero]
      push_cast
      field_simp
      norm_num
    rw [← hvalue] at hv
    exact hv
  · have hvalue : (n * 2 ^ (0 : Int) / ((10 ^ (-x).toNat : Nat) * 2 ^ (0 : Int)) : ℚ) =
        n * 10 ^ x := by
      have hpow : (10 : ℚ) ^ x = ((10 : ℚ) ^ (-x).toNat)⁻¹ := by
        rw [← zpow_natCast, ← zpow_neg]
        congr 1
        omega
      rw [hpow, zpow_zero, mul_one, mul_one, div_eq_mul_inv]
      push_cast
      rfl
    rw [← hvalue] at hv
    rw [if_neg hx]
    exact div_eq .positive .positive _ _ hc hv

/-! ## Decimal numbers whose parts are doubles -/

/-- An integer of at most 53 bits is a double. -/
theorem exists_toFloat (hpos : 0 < n) (hn : n < 2 ^ 53) :
    ∃ (k : Nat) (t : Int) (hc : IsCanonical k t), 2 ^ 52 ≤ k ∧ (k * 2 ^ t : ℚ) = n ∧
      n.toUInt64.toFloat = ofUnpacked (.finite .positive k t hc.pos) := by
  have hlog : n.log2 ≤ 52 := Nat.lt_succ_iff.1 ((Nat.log2_lt (Nat.ne_of_gt hpos)).2 hn)
  obtain ⟨j, hj⟩ : ∃ j, 52 = n.log2 + j := ⟨52 - n.log2, by omega⟩
  have hpos' : n * 2 ^ j ≠ 0 := Nat.ne_of_gt (Nat.mul_pos hpos (Nat.two_pow_pos j))
  obtain ⟨hbits, hlt⟩ := (Nat.log2_eq_iff hpos').1 ((log2_mul_two_pow hpos j).trans hj.symm)
  have hc : IsCanonical (n * 2 ^ j) (-j) :=
    ⟨by omega, hlt, by omega, by omega, .inl hbits⟩
  refine ⟨n * 2 ^ j, -j, hc, hbits, ?_, ?_⟩
  · rw [zpow_neg, zpow_natCast]
    push_cast
    field_simp
  · have hround : UnpackedFloat.round .binary64 .positive n 0 =
        .finite .positive (n * 2 ^ j) (-j) hc.pos := by
      have htarget : max ((n.log2 : Int) + 0 - 52) (-1074) = -j := by omega
      have hshift : (0 - (-j : Int)).toNat = j := by omega
      have hdecrease : UnpackedFloat.decreaseExponent n 0 (-j) = (n * 2 ^ j, -(j : Int)) := by
        unfold UnpackedFloat.decreaseExponent
        dsimp only
        rw [hshift, Nat.shiftLeft_eq, Int.zero_sub]
      unfold UnpackedFloat.round
      rw [targetExponent_eq, htarget]
      dsimp only
      rw [hdecrease]
      exact roundWithAccuracy_eq .positive (represents_exact _) (le_targetExponent hbits _) hc
        (.self _ _)
    have hword : n.toUInt64.toNat = n := Nat.mod_eq_of_lt (by omega)
    show ofUnpacked (UnpackedFloat.normalize .binary64 n.toUInt64.toNat 0 .positive) = _
    rw [hword, UnpackedFloat.normalize, Int.compare_eq_gt.2 (by omega)]
    exact congrArg ofUnpacked hround

/-- Whether a double is a power of ten. -/
def isPowerOfTen (x : Float) (i : Nat) : Bool :=
  match x.toModel.unpack with
  | .finite .positive k t _ => k * 2 ^ t.toNat = 10 ^ i * 2 ^ (-t).toNat
  | _ => false

theorem exists_of_isPowerOfTen {x : Float} {i : Nat} (h : isPowerOfTen x i) :
    ∃ k t, ∃ hk : 0 < k, x.toModel.unpack = .finite .positive k t hk ∧
      (k * 2 ^ t : ℚ) = 10 ^ i := by
  rw [isPowerOfTen] at h
  cases hx : x.toModel.unpack with
  | finite s k t hk =>
      rw [hx] at h
      cases s with
      | positive =>
          refine ⟨k, t, hk, rfl, ?_⟩
          have h : (k * 2 ^ t.toNat : ℚ) = 10 ^ i * 2 ^ (-t).toNat := by
            exact_mod_cast of_decide_eq_true h
          have hpow : (2 : ℚ) ^ t = 2 ^ t.toNat / 2 ^ (-t).toNat := by
            rw [← zpow_natCast, ← zpow_natCast, ← zpow_sub₀ two_ne_zero]
            congr 1
            omega
          rw [hpow, ← mul_div_assoc, h]
          field_simp
      | negative => cases h
  | zero | infinity | notANumber =>
      rw [hx] at h
      cases h

theorem isPowerOfTen_exactlyRepresentable :
    ∀ i : Fin 23, isPowerOfTen Float.exactlyRepresentablePowersOfTen[i] i := by
  decide +kernel

section Operations

variable {x y : Float} {s s' : UnpackedFloat.Sign} {w k : Nat} {t r : Int} {hw : 0 < w} {hk : 0 < k}

theorem float_mul_eq (hx : x.toModel.unpack = .finite s w t hw)
    (hy : y.toModel.unpack = .finite s' k r hk) (hbits : 2 ^ 52 ≤ w * k) (hc : IsCanonical m e)
    (hv : RoundsTo (w * 2 ^ t * (k * 2 ^ r)) m e) :
    x * y = ofUnpacked (.finite (s * s') m e hc.pos) := by
  show ofUnpacked (UnpackedFloat.mul .binary64 x.toModel.unpack y.toModel.unpack) = _
  rw [hx, hy, mul_eq s s' hw hk hbits hc hv]

theorem float_div_eq (hx : x.toModel.unpack = .finite s w t hw)
    (hy : y.toModel.unpack = .finite s' k r hk) (hc : IsCanonical m e)
    (hv : RoundsTo (w * 2 ^ t / (k * 2 ^ r)) m e) :
    x / y = ofUnpacked (.finite (s / s') m e hc.pos) := by
  show ofUnpacked (UnpackedFloat.div .binary64 x.toModel.unpack y.toModel.unpack) = _
  rw [hx, hy, div_eq s s' hw hk hc hv]

end Operations

/-! ## Decimal numbers -/

/-- **A decimal number is read as the double that it rounds to.** -/
theorem ofScientific_eq {k : Nat} (negative : Bool) (hc : IsCanonical m e)
    (hv : RoundsTo (n * 10 ^ (if negative then -k else k : Int)) m e) :
    Float.ofScientific n negative k = ofUnpacked (.finite .positive m e hc.pos) := by
  unfold Float.ofScientific
  by_cases hsmall : n < 2 ^ 53 ∧ k ≤ 22
  · rw [dif_pos hsmall]
    have hpos := hv.pos hc
    obtain ⟨w, t, hw, hbits, hvalue, hword⟩ := exists_toFloat hpos hsmall.1
    obtain ⟨p, r, hp, hten, hpower⟩ := exists_of_isPowerOfTen
      (isPowerOfTen_exactlyRepresentable ⟨k, Nat.lt_succ_of_le hsmall.2⟩)
    have hunpack := unpack_ofUnpacked .positive hw
    rw [← hword] at hunpack
    dsimp only at hten ⊢
    cases negative with
    | true =>
        have hquotient : (w * 2 ^ t / (p * 2 ^ r) : ℚ) = n * 10 ^ (-k : Int) := by
          rw [hvalue, hpower, zpow_neg, zpow_natCast, div_eq_mul_inv]
        rw [if_pos rfl] at hv ⊢
        rw [← hquotient] at hv
        exact float_div_eq hunpack hten hc hv
    | false =>
        have hproduct : (w * 2 ^ t * (p * 2 ^ r) : ℚ) = n * 10 ^ (k : Int) := by
          rw [hvalue, hpower, zpow_natCast]
        rw [if_neg Bool.false_ne_true] at hv ⊢
        rw [← hproduct] at hv
        exact float_mul_eq hunpack hten (hbits.trans (Nat.le_mul_of_pos_right w hp)) hc hv
  · have hexponent : (if negative then Int.negOfNat k else Int.ofNat k) =
        (if negative then -k else k : Int) := by
      cases negative with
      | true => exact Int.negOfNat_eq
      | false => rfl
    rw [dif_neg hsmall]
    dsimp only
    rw [hexponent]
    exact congrArg ofUnpacked (ofScientific_model_eq hc hv)

/-- **A decimal number is read as the double that it rounds to.** -/
theorem floatOfDecimal_eq {x : Int} (hc : IsCanonical m e) (hv : RoundsTo (n * 10 ^ x) m e) :
    floatOfDecimal n x = ofUnpacked (.finite .positive m e hc.pos) := by
  unfold floatOfDecimal
  rw [if_neg (Nat.ne_of_gt (hv.pos hc))]
  cases x with
  | ofNat k => exact ofScientific_eq false hc hv
  | negSucc k => exact ofScientific_eq true hc hv

/-! ## Integers -/

/-- An integer of more than 53 bits, scaled up and down again, is rounded like its quotient by
one. -/
theorem ofScientific_model_eq_div (hpos : 0 < n) (hn : 2 ^ 52 ≤ n) :
    UnpackedFloat.ofScientific .binary64 n 0 =
      UnpackedFloat.div .binary64 (.finite .positive n 0 hpos)
        (.finite .positive 1 0 Nat.one_pos) := by
  have hsmall : ¬ (0 : Int) < -((2 ^ 11 : Int) + n.log2) := by omega
  unfold UnpackedFloat.ofScientific
  rw [dif_neg (Nat.ne_of_gt hpos), if_neg (by norm_num), if_neg hsmall, if_pos (Int.le_refl 0)]
  show UnpackedFloat.roundWithAccuracy .binary64 .positive (n <<< 53 * 1) (-53 + 0) .exact =
    UnpackedFloat.roundWithAccuracy .binary64 .positive
      (UnpackedFloat.divCore .binary64 n 0 1 0).1 (UnpackedFloat.divCore .binary64 n 0 1 0).2.1
      (UnpackedFloat.divCore .binary64 n 0 1 0).2.2
  unfold UnpackedFloat.divCore
  dsimp only
  generalize hx : min ((0 : Int) - 0)
    (Format.binary64.targetExponent (totalExponent n 0 - totalExponent 1 0)) = x
  obtain ⟨j, rfl⟩ : ∃ j : Nat, x = -j := ⟨(-x).toNat, by omega⟩
  have hj : ((0 : Int) - 0 - -(j : Int)).toNat = j := by omega
  have haccuracy : UnpackedFloat.accuracyOfFraction (n <<< j % 1) 1 = .exact := by
    rw [Nat.mod_one]
    rfl
  rw [hj, Nat.div_one, haccuracy, Nat.shiftLeft_eq, Nat.shiftLeft_eq, mul_one, add_zero]
  -- the two mantissas are the integer, scaled by powers of two
  have hbits (i : Nat) : 2 ^ 52 ≤ n * 2 ^ i := hn.trans (Nat.le_mul_of_pos_right n (Nat.two_pow_pos i))
  have hvalue (i : Nat) : ((n * 2 ^ i : Nat) * 2 ^ (-(i : Int)) : ℚ) = n := by
    rw [zpow_neg, zpow_natCast]
    push_cast
    field_simp
  refine roundWithAccuracy_congr .positive (represents_exact _) (represents_exact _)
    (le_targetExponent (hbits 53) _) (le_targetExponent (hbits j) _) ?_ ?_
  · rw [targetExponent_eq, targetExponent_eq, log2_mul_two_pow hpos, log2_mul_two_pow hpos]
    omega
  · exact (hvalue 53).trans (hvalue j).symm

/-- **The double nearest to an integer is the one nearest to its quotient by one.** -/
theorem floatOfQuotient_one (hpos : 0 < n) : Number.floatOfQuotient n 1 = Number.floatOfNat n := by
  have hquotient : Number.floatOfQuotient n 1 = ofUnpacked (UnpackedFloat.div .binary64
      (.finite .positive n 0 hpos) (.finite .positive 1 0 Nat.one_pos)) :=
    (dif_pos hpos).trans (dif_pos Nat.one_pos)
  rw [hquotient, Number.floatOfNat]
  by_cases hn : n < 2 ^ 53
  · obtain ⟨k, t, hc, -, hvalue, -⟩ := exists_toFloat hpos hn
    have hv := RoundsTo.self k t
    rw [hvalue] at hv
    have hdiv : (n * 2 ^ (0 : Int) / ((1 : Nat) * 2 ^ (0 : Int)) : ℚ) = n := by norm_num
    have hten : (n * 10 ^ (if false then -(0 : Nat) else (0 : Nat) : Int) : ℚ) = n := by norm_num
    rw [ofScientific_eq false hc (hten.symm ▸ hv), div_eq .positive .positive hpos Nat.one_pos hc
      (hdiv.symm ▸ hv)]
    rfl
  · have hlarge : ¬ (n < 2 ^ 53 ∧ 0 ≤ 22) := fun h => hn h.1
    unfold Float.ofScientific
    rw [dif_neg hlarge]
    exact congrArg ofUnpacked (ofScientific_model_eq_div hpos (by omega)).symm

end Calculator
