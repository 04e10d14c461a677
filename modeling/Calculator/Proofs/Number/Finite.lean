import Calculator.Number.Basic

/-!
# Finite doubles

Facts about binary64 from its bit-level model. A double is finite unless its exponent field is all
ones, so negation keeps it finite (`isFinite_neg`). Rounding a decimal number never gives NaN
(`isNaN_ofScientific`), so that a decimal number that is not finite as a double is infinite.
-/

set_option autoImplicit false

namespace Calculator

open Float.Model

/-! ## The exponent field -/

/-- How a packed double reads: its exponent field and mantissa tell the kinds apart. -/
inductive Unpacks (b : BitVec Format.binary64.numBits) : UnpackedFloat → Prop where
  | infinity (s : UnpackedFloat.Sign) : UnpackedFloat.unpackExponent b = -1#_ →
      UnpackedFloat.unpackMantissa b = 0#_ → Unpacks b (.infinity s)
  | notANumber : UnpackedFloat.unpackExponent b = -1#_ →
      UnpackedFloat.unpackMantissa b ≠ 0#_ → Unpacks b .notANumber
  | zero (s : UnpackedFloat.Sign) : UnpackedFloat.unpackExponent b ≠ -1#_ → Unpacks b (.zero s)
  | finite (s : UnpackedFloat.Sign) {m : Nat} {e : Int} (hm : 0 < m) :
      UnpackedFloat.unpackExponent b ≠ -1#_ →
      e = (UnpackedFloat.unpackExponent b).toNat - 1075 ∨ e = -1074 → Unpacks b (.finite s m e hm)

theorem unpacks (b : BitVec Format.binary64.numBits) :
    Unpacks b (UnpackedFloat.unpack .binary64 b) := by
  by_cases hones : UnpackedFloat.unpackExponent b = -1#_
  · by_cases hm : UnpackedFloat.unpackMantissa b = 0#_
    · have hb : UnpackedFloat.unpack .binary64 b = .infinity _ := (if_pos hones).trans (if_pos hm)
      rw [hb]
      exact .infinity _ hones hm
    · have hb : UnpackedFloat.unpack .binary64 b = .notANumber :=
        (if_pos hones).trans (if_neg hm)
      rw [hb]
      exact .notANumber hones hm
  · by_cases hzero : UnpackedFloat.unpackExponent b = 0#_
    · by_cases hm : UnpackedFloat.unpackMantissa b = 0#_
      · have hb : UnpackedFloat.unpack .binary64 b = .zero _ :=
          (if_neg hones).trans ((if_pos hzero).trans (dif_pos hm))
        rw [hb]
        exact .zero _ hones
      · have hb : UnpackedFloat.unpack .binary64 b = .finite _ _ _ _ :=
          (if_neg hones).trans ((if_pos hzero).trans (dif_neg hm))
        rw [hb]
        refine .finite _ _ hones (Or.inr ?_)
        rw [hzero]
        rfl
    · have hb : UnpackedFloat.unpack .binary64 b = .finite _ _ _ _ :=
        (if_neg hones).trans (if_neg hzero)
      rw [hb]
      exact .finite _ _ hones (Or.inl rfl)

/-- A packed double is finite unless its exponent field is all ones. -/
theorem isFinite_unpack {b : BitVec Format.binary64.numBits}
    (h : UnpackedFloat.unpackExponent b ≠ -1#_) :
    (UnpackedFloat.unpack .binary64 b).isFinite := by
  have hb := unpacks b
  generalize UnpackedFloat.unpack .binary64 b = u at hb ⊢
  cases hb with
  | infinity s hones _ => exact absurd hones h
  | notANumber hones _ => exact absurd hones h
  | zero s _ => rfl
  | finite s hm _ _ => rfl

theorem unpackExponent_ne_of_isFinite {b : BitVec Format.binary64.numBits}
    (h : (UnpackedFloat.unpack .binary64 b).isFinite) :
    UnpackedFloat.unpackExponent b ≠ -1#_ := by
  have hb := unpacks b
  generalize UnpackedFloat.unpack .binary64 b = u at hb h
  cases hb with
  | infinity s _ _ => cases h
  | notANumber _ _ => cases h
  | zero s hones => exact hones
  | finite s hm hones _ => exact hones

/-- The exponent of an unpacked double fits the exponent field, without overflow. -/
def Fits : UnpackedFloat → Prop
  | .finite _ _ e _ => (e + 1075).toNat < 2047
  | .zero _ => True
  | .infinity _ | .notANumber => False

theorem fits_unpack {b : BitVec Format.binary64.numBits}
    (h : (UnpackedFloat.unpack .binary64 b).isFinite) :
    Fits (UnpackedFloat.unpack .binary64 b) := by
  have hb := unpacks b
  generalize UnpackedFloat.unpack .binary64 b = u at hb h ⊢
  cases hb with
  | infinity s _ _ => cases h
  | notANumber _ _ => cases h
  | zero s _ => trivial
  | @finite s m e hm hones he =>
      have hbound : (UnpackedFloat.unpackExponent b).toNat < 2048 :=
        (UnpackedFloat.unpackExponent b).isLt
      have hne : (UnpackedFloat.unpackExponent b).toNat ≠ 2047 :=
        fun hn => hones (BitVec.eq_of_toNat_eq hn)
      show (e + 1075).toNat < 2047
      omega

/-- A packed number has an exponent field that is not all ones, or it is too large and becomes
infinite. -/
theorem pack_finite (s : UnpackedFloat.Sign) (m : Nat) (e : Int) (hm : 0 < m) :
    (2047 ≤ (e + 1075).toNat ∧
      UnpackedFloat.pack .binary64 (.finite s m e hm) = UnpackedFloat.packedInfinity .binary64 s) ∨
    UnpackedFloat.unpackExponent (UnpackedFloat.pack .binary64 (.finite s m e hm)) ≠ -1#_ := by
  have hbias : (e + (Format.binary64.exponentBias : Int) +
      (Format.binary64.mantissaBitsWithoutImplicit : Int)).toNat = (e + 1075).toNat := by
    show (e + (2 ^ (11 - 1) - 1 : Nat) + (52 : Nat)).toNat = (e + 1075).toNat
    omega
  unfold UnpackedFloat.pack
  dsimp only
  rw [hbias]
  split
  · rename_i hlarge
    have hle : 2048 ≤ (e + 1075).toNat + 1 := hlarge
    exact Or.inl ⟨by omega, rfl⟩
  · rename_i hsmall
    have hlt : ¬ 2048 ≤ (e + 1075).toNat + 1 := hsmall
    apply Or.inr
    split
    · rw [UnpackedFloat.unpackExponent_packComponents]
      intro hones
      have hn : (e + 1075).toNat % 2048 = 2047 := congrArg BitVec.toNat hones
      omega
    · rw [UnpackedFloat.unpackExponent_packComponents]
      decide

theorem unpackExponent_packedZero (s : UnpackedFloat.Sign) :
    UnpackedFloat.unpackExponent (UnpackedFloat.packedZero .binary64 s) ≠ -1#_ := by
  rw [UnpackedFloat.packedZero, UnpackedFloat.unpackExponent_packComponents]
  decide

theorem isFinite_pack {u : UnpackedFloat} (h : Fits u) :
    (UnpackedFloat.unpack .binary64 (UnpackedFloat.pack .binary64 u)).isFinite := by
  apply isFinite_unpack
  cases u with
  | infinity s => cases h
  | notANumber => cases h
  | zero s => exact unpackExponent_packedZero s
  | finite s m e hm =>
      rcases pack_finite s m e hm with ⟨hlarge, -⟩ | hexponent
      · exact absurd h (Nat.not_lt.2 hlarge)
      · exact hexponent

/-- Negation keeps a double finite. -/
theorem isFinite_neg {x : Float} (h : x.isFinite) : (-x).isFinite := by
  apply isFinite_pack
  have hfits : Fits x.toModel.unpack := fits_unpack h
  cases hu : x.toModel.unpack with
  | infinity s =>
      rw [hu] at hfits
      cases hfits
  | notANumber =>
      rw [hu] at hfits
      cases hfits
  | zero s => trivial
  | finite s m e hm =>
      rw [hu] at hfits
      exact hfits

/-! ## Rounding -/

/-- A packed double is NaN only if its exponent field is all ones and its mantissa is not zero. -/
theorem isNaN_unpack {b : BitVec Format.binary64.numBits}
    (h : UnpackedFloat.unpackExponent b ≠ -1#_ ∨ UnpackedFloat.unpackMantissa b = 0#_) :
    (UnpackedFloat.unpack .binary64 b).isNaN = false := by
  have hb := unpacks b
  generalize UnpackedFloat.unpack .binary64 b = u at hb ⊢
  cases hb with
  | infinity s _ _ => rfl
  | notANumber hones hm =>
      rcases h with h | h
      · exact absurd hones h
      · exact absurd h hm
  | zero s _ => rfl
  | finite s hm _ _ => rfl

/-- What is a number or infinite is not NaN once packed. -/
theorem isNaN_pack {u : UnpackedFloat} (h : u.isNaN = false) :
    (UnpackedFloat.unpack .binary64 (UnpackedFloat.pack .binary64 u)).isNaN = false := by
  have hinfinity (s : UnpackedFloat.Sign) : UnpackedFloat.unpackMantissa
      (UnpackedFloat.packedInfinity .binary64 s) = 0#_ := by
    rw [UnpackedFloat.packedInfinity, UnpackedFloat.unpackMantissa_packComponents]
    rfl
  apply isNaN_unpack
  cases u with
  | notANumber => cases h
  | infinity s => exact Or.inr (hinfinity s)
  | zero s => exact Or.inl (unpackExponent_packedZero s)
  | finite s m e hm =>
      -- what is too large becomes infinite
      rcases pack_finite s m e hm with ⟨-, hpack⟩ | hexponent
      · rw [hpack]
        exact Or.inr (hinfinity s)
      · exact Or.inl hexponent

theorem isNaN_dite {p : Prop} [Decidable p] {u : p → UnpackedFloat} {v : ¬p → UnpackedFloat}
    (hu : ∀ h, (u h).isNaN = false) (hv : ∀ h, (v h).isNaN = false) :
    (dite p u v).isNaN = false := by
  by_cases h : p
  · rw [dif_pos h]
    exact hu h
  · rw [dif_neg h]
    exact hv h

theorem isNaN_ite {p : Prop} [Decidable p] {u v : UnpackedFloat} (hu : u.isNaN = false)
    (hv : v.isNaN = false) : (if p then u else v).isNaN = false := by
  by_cases h : p
  · rw [if_pos h]
    exact hu
  · rw [if_neg h]
    exact hv

theorem isNaN_roundWithAccuracy (spec : Format) (s : UnpackedFloat.Sign) (m : Nat) (e : Int)
    (a : UnpackedFloat.Accuracy) :
    (UnpackedFloat.roundWithAccuracy spec s m e a).isNaN = false :=
  isNaN_dite (fun _ => rfl) fun _ => rfl

/-- A number that is not NaN times a power of ten is not NaN. -/
theorem isNaN_mul {u v : UnpackedFloat} {s : UnpackedFloat.Sign} {m : Nat} {e : Int} {hm : 0 < m}
    (hu : u.isNaN = false) (hv : v = .finite s m e hm) :
    (UnpackedFloat.mul .binary64 u v).isNaN = false := by
  subst hv
  cases u with
  | notANumber => cases hu
  | infinity s => rfl
  | zero s => rfl
  | finite s' m' e' hm' => exact isNaN_roundWithAccuracy _ _ _ _ _

theorem isNaN_div {u v : UnpackedFloat} {s : UnpackedFloat.Sign} {m : Nat} {e : Int} {hm : 0 < m}
    (hu : u.isNaN = false) (hv : v = .finite s m e hm) :
    (UnpackedFloat.div .binary64 u v).isNaN = false := by
  subst hv
  cases u with
  | notANumber => cases hu
  | infinity s => rfl
  | zero s => rfl
  | finite s' m' e' hm' => exact isNaN_roundWithAccuracy _ _ _ _ _

theorem isNaN_ofScientific_model (m : Nat) (e : Int) :
    (UnpackedFloat.ofScientific .binary64 m e).isNaN = false := by
  refine isNaN_dite (fun _ => rfl) fun hm => ?_
  -- the power of ten is too large, or too small, or it is computed
  refine isNaN_ite rfl (isNaN_ite rfl (isNaN_ite ?_ ?_))
  · exact isNaN_mul rfl rfl
  · exact isNaN_div rfl rfl

/-- The double of a machine word is not NaN. -/
theorem isNaN_toFloat (n : UInt64) : n.toFloat.isNaN = false := by
  apply isNaN_pack
  show (UnpackedFloat.normalize _ _ _ _).isNaN = false
  unfold UnpackedFloat.normalize
  split
  · exact isNaN_roundWithAccuracy _ _ _ _ _
  · rfl
  · exact isNaN_roundWithAccuracy _ _ _ _ _

/-- Whether a double is a positive number. -/
def isPositiveNumber (x : Float) : Bool :=
  match x.toModel.unpack with
  | .finite .positive _ _ _ => true
  | _ => false

theorem exists_of_isPositiveNumber {x : Float} (h : isPositiveNumber x) :
    ∃ m e, ∃ hm : 0 < m, x.toModel.unpack = .finite .positive m e hm := by
  rw [isPositiveNumber] at h
  cases hx : x.toModel.unpack with
  | finite s m e hm =>
      cases s with
      | positive => exact ⟨m, e, hm, rfl⟩
      | negative =>
          rw [hx] at h
          cases h
  | zero | infinity | notANumber =>
      rw [hx] at h
      cases h

/-- The powers of ten that are doubles are positive numbers. -/
theorem isPositiveNumber_powerOfTen :
    ∀ i : Fin 23, isPositiveNumber Float.exactlyRepresentablePowersOfTen[i] := by
  decide +kernel

/-- **A decimal number is not NaN as a double.** -/
theorem isNaN_ofScientific (m : Nat) (s : Bool) (e : Nat) :
    (Float.ofScientific m s e).isNaN = false := by
  unfold Float.ofScientific
  split
  · rename_i h
    obtain ⟨m', e', hm', hten⟩ :=
      exists_of_isPositiveNumber (isPositiveNumber_powerOfTen ⟨e, Nat.lt_succ_of_le h.2⟩)
    have hword := isNaN_toFloat m.toUInt64
    dsimp only
    split
    · exact isNaN_pack (isNaN_div hword hten)
    · exact isNaN_pack (isNaN_mul hword hten)
  · exact isNaN_pack (isNaN_ofScientific_model m _)

theorem isNaN_of_isFinite {x : Float} (h : x.isFinite) : x.isNaN = false := by
  have hnan : ∀ u : UnpackedFloat, u.isFinite → u.isNaN = false := by
    intro u hu
    cases u with
    | notANumber => cases hu
    | infinity s | zero s | finite s m e hm => rfl
  exact hnan _ h

theorem isInf_of_isFinite {x : Float} (h : x.isFinite) : x.isInf = false := by
  have hinf : ∀ u : UnpackedFloat, u.isFinite → u.isInf = false := by
    intro u hu
    cases u with
    | infinity s => cases hu
    | notANumber | zero s | finite s m e hm => rfl
  exact hinf _ h

/-- A double that is neither finite nor NaN is infinite. -/
theorem isInf_of_not_finite {x : Float} (hfinite : x.isFinite = false) (hnan : x.isNaN = false) :
    x.isInf := by
  have hinf : ∀ u : UnpackedFloat, u.isFinite = false → u.isNaN = false → u.isInf := by
    intro u hfinite hnan
    cases u with
    | infinity s => rfl
    | notANumber => exact absurd hnan.symm Bool.false_ne_true
    | zero s => exact absurd hfinite.symm Bool.false_ne_true
    | finite s m e hm => exact absurd hfinite.symm Bool.false_ne_true
  exact hinf _ hfinite hnan

end Calculator
