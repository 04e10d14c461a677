import Calculator.Decimal.Binary
import Calculator.Proofs.Number.Finite
import Mathlib.Algebra.Group.Nat.Defs

/-!
# Packed doubles

A double is packed into a sign, an exponent field and a mantissa field. A positive finite double has
one canonical form (`IsCanonical`): packing and unpacking it loses nothing (`unpack_pack`), every
finite double but zero is packed from such a form (`eq_ofUnpacked_of_isFinite`), and its exact value
is read off the same mantissa and exponent (`decode_finite`). Other doubles are the two infinite
ones and a single NaN (`eq_ofUnpacked_of_not_finite`).
-/

set_option autoImplicit false

namespace Calculator

open Float.Model
open UnpackedFloat (Sign packComponents unpackMantissa unpackExponent unpackSign
  unpackMantissa_packComponents unpackExponent_packComponents)
open Decimal (decode)

/-! ## Bits -/

/-- A packed double is a sign, an exponent field and a mantissa field. -/
theorem toNat_packComponents (s : Sign) (e : BitVec 11) (m : BitVec 52) :
    (packComponents .binary64 s e m).toNat =
      s.toBitVec.toNat * 2 ^ 63 + e.toNat * 2 ^ 52 + m.toNat := by
  have happend {n k : Nat} (x : BitVec n) (y : BitVec k) :
      (x ++ y).toNat = x.toNat * 2 ^ k + y.toNat := by
    rw [BitVec.toNat_append, ← Nat.shiftLeft_add_eq_or_of_lt y.isLt, Nat.shiftLeft_eq]
  show ((s.toBitVec ++ e) ++ m).toNat = _
  rw [happend, happend]
  omega

theorem toNat_unpackSign (b : BitVec 64) :
    (@unpackSign .binary64 b).toNat = b.toNat / 2 ^ 63 % 2 := by
  show (b.extractLsb 63 63).toNat = _
  rw [BitVec.extractLsb_toNat, Nat.shiftRight_eq_div_pow]

theorem toBitVec_ofBitVec (v : BitVec 1) : (Sign.ofBitVec v).toBitVec = v := by
  revert v
  decide

theorem ofBitVec_toBitVec (s : Sign) : Sign.ofBitVec s.toBitVec = s := by
  cases s with
  | negative => rfl
  | positive => rfl

theorem unpackSign_packComponents (s : Sign) (e : BitVec 11) (m : BitVec 52) :
    unpackSign (packComponents .binary64 s e m) = s.toBitVec := by
  apply BitVec.eq_of_toNat_eq
  have hs := s.toBitVec.isLt
  have he := e.isLt
  have hm := m.isLt
  rw [toNat_unpackSign, toNat_packComponents]
  omega

/-- Each packed double is made of its fields. -/
theorem exists_packComponents (b : BitVec 64) : ∃ s n m, n < 2048 ∧ m < 2 ^ 52 ∧
    b = packComponents .binary64 s (BitVec.ofNat 11 n) (BitVec.ofNat 52 m) := by
  refine ⟨.ofBitVec (@unpackSign .binary64 b), b.toNat / 2 ^ 52 % 2 ^ 11,
    b.toNat % 2 ^ 52, by omega, by omega, ?_⟩
  apply BitVec.eq_of_toNat_eq
  have hb := b.isLt
  rw [toNat_packComponents, toBitVec_ofBitVec, toNat_unpackSign, BitVec.toNat_ofNat,
    BitVec.toNat_ofNat]
  omega

/-! ## Canonical form -/

/-- A mantissa and an exponent as a positive finite double has them: 53 bits, or fewer with the
least exponent. -/
structure IsCanonical (m : Nat) (e : Int) : Prop where
  pos : 0 < m
  lt : m < 2 ^ 53
  least : -1074 ≤ e
  greatest : e ≤ 971
  isNormal : 2 ^ 52 ≤ m ∨ e = -1074

/-- A mantissa of 53 bits is packed without its first bit. -/
theorem pack_normal (s : Sign) {m : Nat} {e : Int} (h : IsCanonical m e) (hm : 2 ^ 52 ≤ m) :
    UnpackedFloat.pack .binary64 (.finite s m e h.pos) =
      packComponents .binary64 s (BitVec.ofNat 11 (e + 1075).toNat) (BitVec.ofNat 52 m) := by
  have hlog : m.log2 = 52 := (Nat.log2_eq_iff (Nat.ne_of_gt h.pos)).2 ⟨hm, h.lt⟩
  have hbias : (e + (Format.binary64.exponentBias : Int) +
      (Format.binary64.mantissaBitsWithoutImplicit : Int)).toNat = (e + 1075).toNat := by
    show (e + (2 ^ (11 - 1) - 1 : Nat) + (52 : Nat)).toNat = (e + 1075).toNat
    omega
  have hsmall : ¬ 2 ^ 11 ≤ (e + 1075).toNat + 1 := by
    have := h.greatest
    omega
  unfold UnpackedFloat.pack
  dsimp only
  rw [hbias, if_neg hsmall, if_pos (by rw [hlog]; rfl)]

/-- A shorter mantissa is packed with an empty exponent field. -/
theorem pack_subnormal (s : Sign) {m : Nat} (hpos : 0 < m) (hm : m < 2 ^ 52) :
    UnpackedFloat.pack .binary64 (.finite s m (-1074) hpos) =
      packComponents .binary64 s 0#11 (BitVec.ofNat 52 m) := by
  have hlog : m.log2 < 52 := (Nat.log2_lt (Nat.ne_of_gt hpos)).2 hm
  have hne : ¬ m.log2 + 1 = Format.binary64.mantissaBits := by
    show ¬ m.log2 + 1 = 53
    omega
  unfold UnpackedFloat.pack
  dsimp only
  rw [if_neg hne]
  rfl

theorem finite_congr {s s' : Sign} {m m' : Nat} {e e' : Int} {hm : 0 < m} {hm' : 0 < m'}
    (hs : s = s') (hmm : m = m') (he : e = e') :
    UnpackedFloat.finite s m e hm = .finite s' m' e' hm' := by
  subst hs hmm he
  rfl

theorem unpack_normal (s : Sign) {n m : Nat} (hn : 0 < n) (hn' : n < 2047) :
    ∃ h, UnpackedFloat.unpack .binary64
        (packComponents .binary64 s (BitVec.ofNat 11 n) (BitVec.ofNat 52 m)) =
      .finite s (2 ^ 52 + m % 2 ^ 52) ((n : Int) - 1075) h := by
  have hexponent : (BitVec.ofNat 11 n).toNat = n := by
    rw [BitVec.toNat_ofNat]
    omega
  have hones : BitVec.ofNat 11 n ≠ -1#11 := by
    intro h
    have h := congrArg BitVec.toNat h
    rw [hexponent] at h
    change n = 2047 at h
    omega
  have hzero : BitVec.ofNat 11 n ≠ 0#11 := by
    intro h
    have h := congrArg BitVec.toNat h
    rw [hexponent] at h
    change n = 0 at h
    omega
  have hm : (1#1 ++ BitVec.ofNat 52 m).toNat = 2 ^ 52 + m % 2 ^ 52 := by
    rw [BitVec.toNat_append, ← Nat.shiftLeft_add_eq_or_of_lt (BitVec.isLt _), BitVec.toNat_ofNat]
    rfl
  refine ⟨by omega, ?_⟩
  have hfield : unpackExponent (packComponents .binary64 s (BitVec.ofNat 11 n)
      (BitVec.ofNat 52 m)) = BitVec.ofNat 11 n := unpackExponent_packComponents
  rw [← hfield] at hones hzero hexponent
  refine ((if_neg hones).trans (if_neg hzero)).trans (finite_congr ?_ ?_ ?_)
  · rw [unpackSign_packComponents, ofBitVec_toBitVec]
  · rw [unpackMantissa_packComponents]
    exact hm
  · rw [hexponent]
    show (n : Int) - ((2 ^ (11 - 1) - 1 : Nat) + (52 : Nat)) = _
    omega

theorem unpack_subnormal (s : Sign) {m : Nat} (hpos : 0 < m) (hm : m < 2 ^ 52) :
    UnpackedFloat.unpack .binary64 (packComponents .binary64 s 0#11 (BitVec.ofNat 52 m)) =
      .finite s m (-1074) hpos := by
  have hmantissa : (BitVec.ofNat 52 m).toNat = m := by
    rw [BitVec.toNat_ofNat, Nat.mod_eq_of_lt hm]
  have hzero : BitVec.ofNat 52 m ≠ 0#52 := by
    intro h
    have h := congrArg BitVec.toNat h
    rw [hmantissa] at h
    exact absurd h (Nat.ne_of_gt hpos)
  have hexponent : unpackExponent (packComponents .binary64 s 0#11 (BitVec.ofNat 52 m)) = 0#11 :=
    unpackExponent_packComponents
  have hones : unpackExponent (packComponents .binary64 s 0#11 (BitVec.ofNat 52 m)) ≠ -1#11 := by
    rw [hexponent]
    decide
  have hfield : unpackMantissa (packComponents .binary64 s 0#11 (BitVec.ofNat 52 m)) =
      BitVec.ofNat 52 m := unpackMantissa_packComponents
  rw [← hfield] at hmantissa hzero
  refine ((if_neg hones).trans ((if_pos hexponent).trans (dif_neg hzero))).trans
    (finite_congr ?_ hmantissa ?_)
  · rw [unpackSign_packComponents, ofBitVec_toBitVec]
  · rw [hexponent]
    rfl

/-- **A double in canonical form is packed and unpacked without loss.** -/
theorem unpack_pack (s : Sign) {m : Nat} {e : Int} (h : IsCanonical m e) :
    UnpackedFloat.unpack .binary64 (UnpackedFloat.pack .binary64 (.finite s m e h.pos)) =
      .finite s m e h.pos := by
  by_cases hm : 2 ^ 52 ≤ m
  · have hleast := h.least
    have hgreatest := h.greatest
    have hlt := h.lt
    obtain ⟨_, hunpack⟩ := unpack_normal s (n := (e + 1075).toNat) (m := m) (by omega) (by omega)
    rw [pack_normal s h hm, hunpack]
    exact finite_congr rfl (by omega) (by omega)
  · obtain rfl := h.isNormal.resolve_left hm
    have hlt : m < 2 ^ 52 := Nat.lt_of_not_le hm
    rw [pack_subnormal s h.pos hlt, unpack_subnormal s h.pos hlt]

/-- **A packed finite double is a zero or has a canonical form**, from which it is packed. -/
theorem eq_pack_of_isFinite {b : BitVec 64} (h : (UnpackedFloat.unpack .binary64 b).isFinite) :
    ∃ s, (UnpackedFloat.unpack .binary64 b = .zero s ∧
        b = UnpackedFloat.pack .binary64 (.zero s)) ∨
      ∃ (m : Nat) (e : Int) (hc : IsCanonical m e),
        UnpackedFloat.unpack .binary64 b = .finite s m e hc.pos ∧
          b = UnpackedFloat.pack .binary64 (.finite s m e hc.pos) := by
  obtain ⟨s, n, m, hn, hm, rfl⟩ := exists_packComponents b
  refine ⟨s, ?_⟩
  rcases Nat.eq_zero_or_pos n with rfl | hpos
  · rcases Nat.eq_zero_or_pos m with rfl | hpos
    · left
      refine ⟨?_, rfl⟩
      cases s with
      | negative => rfl
      | positive => rfl
    · right
      have hc : IsCanonical m (-1074) := ⟨hpos, by omega, Int.le_refl _, by decide, .inr rfl⟩
      exact ⟨m, -1074, hc, unpack_subnormal s hpos hm, (pack_subnormal s hpos hm).symm⟩
  · have hlt : n < 2047 := by
      -- with all ones in its exponent field it would be infinite or NaN
      have hones := unpackExponent_ne_of_isFinite h
      rw [unpackExponent_packComponents] at hones
      refine Nat.lt_of_le_of_ne (Nat.le_of_lt_succ hn) ?_
      rintro rfl
      exact hones (by decide)
    right
    have hc : IsCanonical (2 ^ 52 + m % 2 ^ 52) ((n : Int) - 1075) :=
      ⟨by omega, by omega, by omega, by omega, .inl (by omega)⟩
    obtain ⟨_, hunpack⟩ := unpack_normal s (m := m) hpos hlt
    refine ⟨_, _, hc, hunpack, ?_⟩
    have hexponent : ((n : Int) - 1075 + 1075).toNat = n := by omega
    have hmantissa : BitVec.ofNat 52 (2 ^ 52 + m % 2 ^ 52) = BitVec.ofNat 52 m := by
      apply BitVec.eq_of_toNat_eq
      rw [BitVec.toNat_ofNat, BitVec.toNat_ofNat]
      omega
    rw [pack_normal s hc (by omega), hexponent, hmantissa]

/-! ## Doubles -/

/-- The double that is packed from its parts. -/
def ofUnpacked (u : UnpackedFloat) : Float := .ofModel (Float.Model.pack u)

theorem unpack_ofUnpacked (s : Sign) {m : Nat} {e : Int} (h : IsCanonical m e) :
    (ofUnpacked (.finite s m e h.pos)).toModel.unpack = .finite s m e h.pos :=
  unpack_pack s h

/-- A double is its bits. -/
theorem eq_ofUnpacked_of_bits {x : Float} {u : UnpackedFloat}
    (h : x.toModel.toBits.toBitVec = UnpackedFloat.pack .binary64 u) : x = ofUnpacked u := by
  obtain ⟨⟨bits, hvalid⟩⟩ := x
  obtain rfl : bits = UInt64.ofBitVec (UnpackedFloat.pack .binary64 u) := UInt64.toBitVec_inj.1 h
  rfl

/-- **A finite double is a zero or packed from a canonical form.** -/
theorem eq_ofUnpacked_of_isFinite {x : Float} (h : x.isFinite) :
    ∃ s, x = ofUnpacked (.zero s) ∨
      ∃ (m : Nat) (e : Int) (hc : IsCanonical m e), x = ofUnpacked (.finite s m e hc.pos) := by
  obtain ⟨s, ⟨-, hzero⟩ | ⟨m, e, hc, -, hpacked⟩⟩ := eq_pack_of_isFinite h
  · exact ⟨s, .inl (eq_ofUnpacked_of_bits hzero)⟩
  · exact ⟨s, .inr ⟨m, e, hc, eq_ofUnpacked_of_bits hpacked⟩⟩

/-- **A double that is not finite is infinite, or the one NaN there is.** -/
theorem eq_ofUnpacked_of_not_finite {x : Float} (h : x.isFinite = false) :
    x = ofUnpacked .notANumber ∨ ∃ s, x = ofUnpacked (.infinity s) := by
  have hvalid := x.toModel.valid.eq_packedNaN
  obtain ⟨s, n, m, hn, hm, hx⟩ := exists_packComponents x.toModel.toBits.toBitVec
  have hones : BitVec.ofNat 11 n = -1#11 := by
    refine Decidable.byContradiction fun hones => ?_
    have hfinite : x.isFinite := isFinite_unpack (b := x.toModel.toBits.toBitVec) (by
      rw [hx, unpackExponent_packComponents]
      exact hones)
    rw [h] at hfinite
    cases hfinite
  rw [hx, unpackExponent_packComponents, unpackMantissa_packComponents] at hvalid
  by_cases hzero : BitVec.ofNat 52 m = 0#52
  · refine .inr ⟨s, eq_ofUnpacked_of_bits ?_⟩
    rw [hx, hones, hzero]
    rfl
  · refine .inl (eq_ofUnpacked_of_bits ?_)
    rw [hx]
    exact hvalid hones hzero

/-- Whether a sign is a minus. -/
def isMinus : Sign → Bool
  | .negative => true
  | .positive => false

/-- The fields of a double that is not infinite, decoded. -/
theorem decode_of_bits {x : Float} (s : Sign) {n m : Nat} (hn : n < 2047)
    (hm : m < 2 ^ 52) (hx : x.toBits.toBitVec =
      packComponents .binary64 s (BitVec.ofNat 11 n) (BitVec.ofNat 52 m)) :
    decode x = if n = 0 then .finite (isMinus s) m (-1074)
      else .finite (isMinus s) (2 ^ 52 + m) ((n : Int) - 1075) := by
  have hbits : x.toBits.toNat = s.toBitVec.toNat * 2 ^ 63 + n * 2 ^ 52 + m := by
    show x.toBits.toBitVec.toNat = _
    rw [hx, toNat_packComponents, BitVec.toNat_ofNat, BitVec.toNat_ofNat]
    omega
  have hnegative : decide (x.toBits.toNat / Nat.pow 2 63 = 1) = isMinus s := by
    rw [hbits]
    cases s with
    | negative =>
        have hone : (1 * 2 ^ 63 + n * 2 ^ 52 + m) / 2 ^ 63 = 1 := by omega
        exact decide_eq_true hone
    | positive =>
        have hzero : (0 * 2 ^ 63 + n * 2 ^ 52 + m) / 2 ^ 63 = 0 := by omega
        exact decide_eq_false (hzero ▸ Nat.zero_ne_one)
  have hbiased : x.toBits.toNat / Nat.pow 2 52 % 2048 = n := by
    rw [hbits]
    show _ / 2 ^ 52 % 2048 = n
    omega
  have hfraction : x.toBits.toNat % Nat.pow 2 52 = m := by
    rw [hbits]
    show _ % 2 ^ 52 = m
    omega
  unfold decode
  dsimp only
  rw [hbiased, hfraction, hnegative]
  exact if_neg (Nat.ne_of_lt hn)

/-- **A double in canonical form is decoded to its parts.** -/
theorem decode_finite (s : Sign) {m : Nat} {e : Int} (h : IsCanonical m e) :
    decode (ofUnpacked (.finite s m e h.pos)) = .finite (isMinus s) m e := by
  have hlt := h.lt
  have hleast := h.least
  have hgreatest := h.greatest
  by_cases hm : 2 ^ 52 ≤ m
  · have hmantissa : BitVec.ofNat 52 m = BitVec.ofNat 52 (m - 2 ^ 52) := by
      apply BitVec.eq_of_toNat_eq
      rw [BitVec.toNat_ofNat, BitVec.toNat_ofNat]
      omega
    have hx := pack_normal s h hm
    rw [hmantissa] at hx
    have hdecode := decode_of_bits (x := ofUnpacked (.finite s m e h.pos)) s
      (n := (e + 1075).toNat) (m := m - 2 ^ 52) (by omega) (by omega) hx
    have hsum : 2 ^ 52 + (m - 2 ^ 52) = m := Nat.add_sub_cancel' hm
    have hexponent : ((e + 1075).toNat : Int) - 1075 = e := by omega
    rw [hdecode, if_neg (by omega), hsum, hexponent]
  · obtain rfl := h.isNormal.resolve_left hm
    exact decode_of_bits s (n := 0) (by decide) (Nat.lt_of_not_le hm)
      (pack_subnormal s h.pos (Nat.lt_of_not_le hm))

end Calculator
