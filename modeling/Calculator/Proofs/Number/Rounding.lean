import Calculator.Proofs.Number.Packing
import Mathlib.Algebra.Order.Field.Power
import Mathlib.Tactic.FieldSimp
import Mathlib.Tactic.Linarith
import Mathlib.Tactic.Positivity
import Mathlib.Tactic.Ring

/-!
# Rounding to the nearest double

A rational number rounds to a double if the mantissa of the double is the integer nearest to it in
units of the last place (`RoundsTo`). Rounding keeps two bits behind a mantissa, and they tell
enough about the number that the mantissa stands for (`Represents`): a mantissa that has enough bits
is rounded to the double that its number rounds to (`roundWithAccuracy_eq`). So are products
(`mul_eq`) and quotients (`div_eq`).
-/

set_option autoImplicit false

namespace Calculator

open Float.Model
open UnpackedFloat (Accuracy ExtendedMantissa)

/-! ## Nearest integers -/

/-- An integer is nearest to a rational number. One half away it must be even. -/
structure IsNearest (n : Nat) (v : ℚ) : Prop where
  lower : (n : ℚ) - 1 / 2 ≤ v
  upper : v ≤ n + 1 / 2
  even : v = n - 1 / 2 ∨ v = n + 1 / 2 → n % 2 = 0

namespace IsNearest

variable {n k : Nat} {v : ℚ}

/-- Only one integer is nearest. -/
theorem unique (hn : IsNearest n v) (hk : IsNearest k v) : n = k := by
  have hle {n k : Nat} (hn : IsNearest n v) (hk : IsNearest k v) : n ≤ k := by
    by_contra hlt
    have hupper := hk.upper
    have hlower := hn.lower
    have hle : n ≤ k + 1 := by
      have hle : (n : ℚ) ≤ k + 1 := by linarith
      exact_mod_cast hle
    obtain rfl : n = k + 1 := by omega
    push_cast at hlower
    -- both would be one half away, and both would be even
    have hv : v = k + 1 / 2 := by linarith
    have hk' := hk.even (.inr hv)
    have hn' := hn.even (.inl (by push_cast; linarith))
    omega
  exact Nat.le_antisymm (hle hn hk) (hle hk hn)

theorem of_lt (hlower : (n : ℚ) - 1 / 2 < v) (hupper : v < n + 1 / 2) : IsNearest n v :=
  ⟨hlower.le, hupper.le, fun h => by
    rcases h with rfl | rfl
    · exact absurd hlower (lt_irrefl _)
    · exact absurd hupper (lt_irrefl _)⟩

theorem of_even (hlower : (n : ℚ) - 1 / 2 ≤ v) (hupper : v ≤ n + 1 / 2) (heven : n % 2 = 0) :
    IsNearest n v :=
  ⟨hlower, hupper, fun _ => heven⟩

end IsNearest

/-! ## Two bits behind a mantissa -/

/-- What a mantissa with two bits behind it tells about a number: where it lies from the mantissa to
the next one. The round bit tells the halves apart, the sticky bit tells whether anything is
left. -/
def Represents : ExtendedMantissa → ℚ → Prop
  | ⟨m, false, false⟩, v => v = m
  | ⟨m, false, true⟩, v => (m : ℚ) < v ∧ v < m + 1 / 2
  | ⟨m, true, false⟩, v => v = m + 1 / 2
  | ⟨m, true, true⟩, v => (m : ℚ) + 1 / 2 < v ∧ v < m + 1

namespace Represents

variable {em : ExtendedMantissa} {v : ℚ}

theorem bounds (h : Represents em v) : (em.mantissa : ℚ) ≤ v ∧ v < em.mantissa + 1 := by
  obtain ⟨m, round, sticky⟩ := em
  cases round <;> cases sticky <;> simp only [Represents] at h ⊢ <;> constructor <;> linarith

theorem nearest (h : Represents em v) : IsNearest em.roundedMantissa v := by
  obtain ⟨m, round, sticky⟩ := em
  match round, sticky, h with
  | false, false, h =>
      obtain rfl : v = m := h
      exact .of_lt (sub_lt_self _ one_half_pos) (lt_add_of_pos_right _ one_half_pos)
  | false, true, h =>
      obtain ⟨hlower, hupper⟩ : (m : ℚ) < v ∧ v < m + 1 / 2 := h
      exact .of_lt (by show (m : ℚ) - 1 / 2 < v; linarith) hupper
  | true, false, h =>
      obtain rfl : v = m + 1 / 2 := h
      show IsNearest (m + m % 2) _
      rcases Nat.mod_two_eq_zero_or_one m with hm | hm
      · rw [hm]
        exact .of_even (by push_cast; linarith) (by push_cast; linarith) hm
      · rw [hm]
        exact .of_even (by push_cast; linarith) (by push_cast; linarith) (by omega)
  | true, true, h =>
      obtain ⟨hlower, hupper⟩ : (m : ℚ) + 1 / 2 < v ∧ v < m + 1 := h
      show IsNearest (m + 1) v
      exact .of_lt (by push_cast; linarith) (by push_cast; linarith)

/-- One bit less is one half. The last bit of the mantissa becomes the round bit. -/
theorem shiftRightOne (h : Represents em v) : Represents em.shiftRightOne (v / 2) := by
  obtain ⟨m, round, sticky⟩ := em
  rcases Nat.even_or_odd' m with ⟨k, rfl | rfl⟩
  · have hk : 2 * k / 2 = k := by omega
    have hbit : (2 * k % 2 != 0) = false := by simp
    cases round <;> cases sticky <;>
      simp only [Represents, ExtendedMantissa.shiftRightOne, hk, hbit, Bool.or_false,
        Bool.or_true] at h ⊢ <;>
      push_cast at h <;> (try constructor) <;> linarith
  · have hk : (2 * k + 1) / 2 = k := by omega
    have hbit : ((2 * k + 1) % 2 != 0) = true := by simp
    cases round <;> cases sticky <;>
      simp only [Represents, ExtendedMantissa.shiftRightOne, hk, hbit, Bool.or_false,
        Bool.or_true] at h ⊢ <;>
      push_cast at h <;> (try constructor) <;> linarith

theorem shiftRight (h : Represents em v) (k : Nat) : Represents (em >>> k) (v / 2 ^ k) := by
  show Represents (k.repeat ExtendedMantissa.shiftRightOne em) _
  induction k with
  | zero =>
      rw [pow_zero, div_one]
      exact h
  | succ k ih =>
      rw [pow_succ, ← div_div]
      exact ih.shiftRightOne

end Represents

theorem represents_exact (m : Nat) : Represents (.ofMantissaAndAccuracy m .exact) m := rfl

/-- A quotient with the remainder compared to one half of the divisor. -/
theorem represents_div (n : Nat) {d : Nat} (hd : 0 < d) :
    Represents (.ofMantissaAndAccuracy (n / d) (UnpackedFloat.accuracyOfFraction (n % d) d))
      (n / d : ℚ) := by
  have hd' : (0 : ℚ) < d := by exact_mod_cast hd
  have hn : (n : ℚ) = (n / d : Nat) * d + (n % d : Nat) := by
    exact_mod_cast (Nat.div_add_mod' n d).symm
  have hv : (n / d : ℚ) = (n / d : Nat) + (n % d : Nat) / d := by
    field_simp
    linarith
  have hlt : ((n % d : Nat) : ℚ) < d := by exact_mod_cast Nat.mod_lt n hd
  rw [hv]
  generalize n / d = q
  generalize n % d = r at hlt ⊢
  unfold UnpackedFloat.accuracyOfFraction
  rcases Nat.eq_zero_or_pos r with rfl | hr
  · rw [if_pos rfl]
    show (q : ℚ) + (0 : Nat) / d = q
    rw [Nat.cast_zero, zero_div, add_zero]
  · rw [if_neg (Nat.ne_of_gt hr)]
    have hr' : (0 : ℚ) < r := by exact_mod_cast hr
    rcases Nat.lt_trichotomy (2 * r) d with hless | hhalf | hmore
    · rw [Nat.compare_eq_lt.2 hless]
      have hless : (2 : ℚ) * r < d := by exact_mod_cast hless
      have hquotient : (r / d : ℚ) < 1 / 2 := by
        rw [div_lt_div_iff₀ hd' two_pos]
        linarith
      exact ⟨lt_add_of_pos_right _ (div_pos hr' hd'), by linarith⟩
    · rw [Nat.compare_eq_eq.2 hhalf]
      have hhalf : (2 : ℚ) * r = d := by exact_mod_cast hhalf
      show (q : ℚ) + r / d = q + 1 / 2
      rw [← hhalf]
      field_simp
    · rw [Nat.compare_eq_gt.2 hmore]
      have hmore : (d : ℚ) < 2 * r := by exact_mod_cast hmore
      have hquotient : 1 / 2 < (r / d : ℚ) := by
        rw [div_lt_div_iff₀ two_pos hd']
        linarith
      have hone : (r / d : ℚ) < 1 := (div_lt_one hd').2 hlt
      exact ⟨by linarith, by linarith⟩

/-! ## Rounding -/

/-- The exponent of a mantissa of 53 bits, or the least one. -/
theorem targetExponent_eq (m : Nat) (e : Int) :
    Format.binary64.targetExponent (totalExponent m e) = max (m.log2 + e - 52) (-1074) := by
  show max ((m.log2 : Int) + 1 + e - (1 + 52 : Nat)) (3 - 2 ^ (11 - 1) - (1 + 52 : Nat)) = _
  omega

/-- What is shifted to its target exponent represents the same number there. -/
theorem exists_shiftToTargetExponent {m : Nat} {e : Int} {a : Accuracy} {w : ℚ}
    (h : Represents (.ofMantissaAndAccuracy m a) w)
    (he : e ≤ Format.binary64.targetExponent (totalExponent m e)) :
    ∃ em, UnpackedFloat.shiftToTargetExponent .binary64 m e a =
        (em, Format.binary64.targetExponent (totalExponent m e)) ∧
      Represents em (w * 2 ^ e / 2 ^ Format.binary64.targetExponent (totalExponent m e)) := by
  generalize ht : Format.binary64.targetExponent (totalExponent m e) = t at he ⊢
  obtain ⟨k, rfl⟩ : ∃ k : Nat, t = e + k := ⟨(t - e).toNat, by omega⟩
  have hk : (e + k - e).toNat = k := by omega
  refine ⟨ExtendedMantissa.ofMantissaAndAccuracy m a >>> k, ?_, ?_⟩
  · rw [UnpackedFloat.shiftToTargetExponent, ht, UnpackedFloat.shiftToExponent, hk]
  · have hpow : w * 2 ^ e / 2 ^ (e + k) = w / 2 ^ k := by
      rw [zpow_add₀ two_ne_zero, zpow_natCast, mul_comm, mul_div_mul_left]
      exact (zpow_pos two_pos e).ne'
    rw [hpow]
    exact h.shiftRight k

/-- A number in units of its target exponent takes 53 bits, unless it is so small that its exponent
is the least one. -/
theorem bounds_targetExponent {m : Nat} {e : Int} {w : ℚ} (hlower : (m : ℚ) ≤ w)
    (hupper : w < m + 1) (he : e ≤ Format.binary64.targetExponent (totalExponent m e)) :
    w * 2 ^ e / 2 ^ Format.binary64.targetExponent (totalExponent m e) < 2 ^ 53 ∧
      (Format.binary64.targetExponent (totalExponent m e) = -1074 ∨
        2 ^ 52 ≤ w * 2 ^ e / 2 ^ Format.binary64.targetExponent (totalExponent m e)) := by
  rw [targetExponent_eq] at he ⊢
  generalize ht : max ((m.log2 : Int) + e - 52) (-1074) = t at he ⊢
  have hunit : (0 : ℚ) < 2 ^ t := zpow_pos two_pos t
  have hpos : (0 : ℚ) < 2 ^ e := zpow_pos two_pos e
  constructor
  · rw [div_lt_iff₀ hunit]
    have hm : (m : ℚ) + 1 ≤ 2 ^ (m.log2 + 1) := by exact_mod_cast Nat.lt_log2_self
    calc w * 2 ^ e < (m + 1) * 2 ^ e := mul_lt_mul_of_pos_right hupper hpos
      _ ≤ 2 ^ (m.log2 + 1) * 2 ^ e := mul_le_mul_of_nonneg_right hm hpos.le
      _ = 2 ^ ((m.log2 : Int) + 1 + e) := by
          rw [zpow_add₀ two_ne_zero]
          norm_cast
      _ ≤ 2 ^ (53 + t) := zpow_le_zpow_right₀ one_le_two (by omega)
      _ = 2 ^ 53 * 2 ^ t := zpow_add₀ two_ne_zero 53 t
  · by_cases hleast : t = -1074
    · exact .inl hleast
    · right
      -- otherwise there are enough bits
      have hm : m ≠ 0 := by
        rintro rfl
        have hzero : Nat.log2 0 = 0 := by decide
        rw [hzero] at ht
        omega
      have hm' : (2 : ℚ) ^ m.log2 ≤ m := by exact_mod_cast Nat.log2_self_le hm
      rw [le_div_iff₀ hunit]
      calc (2 : ℚ) ^ 52 * 2 ^ t = 2 ^ (52 + t) := (zpow_add₀ two_ne_zero 52 t).symm
        _ = 2 ^ ((m.log2 : Int) + e) := by
            congr 1
            omega
        _ = 2 ^ m.log2 * 2 ^ e := by
            rw [zpow_add₀ two_ne_zero]
            norm_cast
        _ ≤ w * 2 ^ e := mul_le_mul_of_nonneg_right (hm'.trans hlower) hpos.le

/-- A canonical form is at its target exponent. -/
theorem IsCanonical.shift {m : Nat} {e : Int} (h : IsCanonical m e) :
    UnpackedFloat.shiftToTargetExponent .binary64 m e .exact = (⟨m, false, false⟩, e) := by
  have hlog : (m.log2 : Int) ≤ 52 := by
    have := (Nat.log2_lt (Nat.ne_of_gt h.pos)).2 h.lt
    omega
  have htarget : max ((m.log2 : Int) + e - 52) (-1074) = e := by
    rcases h.isNormal with hm | rfl
    · have := (Nat.le_log2 (Nat.ne_of_gt h.pos)).2 hm
      have := h.least
      omega
    · omega
  rw [UnpackedFloat.shiftToTargetExponent, targetExponent_eq, htarget,
    UnpackedFloat.shiftToExponent, Int.sub_self]
  exact Prod.ext rfl (Int.add_zero e)

/-- A mantissa that has been rounded up to a power of two has one bit more. -/
theorem shift_carry {e : Int} (he : -1074 ≤ e) :
    UnpackedFloat.shiftToTargetExponent .binary64 (2 ^ 53) e .exact =
      (⟨2 ^ 52, false, false⟩, e + 1) := by
  have htarget : max (((2 ^ 53).log2 : Int) + e - 52) (-1074) = e + 1 := by
    rw [Nat.log2_two_pow]
    omega
  have hone : (e + 1 - e).toNat = 1 := by omega
  rw [UnpackedFloat.shiftToTargetExponent, targetExponent_eq, htarget,
    UnpackedFloat.shiftToExponent, hone]
  rfl

/-- A rational number rounds to a double: the mantissa is nearest to it in units of the last place,
and below a power of two, where the next double is half as far away, it is nearer than half of
that. -/
structure RoundsTo (v : ℚ) (m : Nat) (e : Int) : Prop where
  nearest : IsNearest m (v / 2 ^ e)
  narrow : m = 2 ^ 52 → -1074 < e → (m : ℚ) - 1 / 4 ≤ v / 2 ^ e

section Units

variable {u : ℚ} {m n : Nat} {d : Int}

/-- A mantissa of at most 53 bits is nearest to no number of 53 bits or more in a smaller unit. -/
theorem IsNearest.unit_le (h : IsNearest m (u / 2 ^ d)) (hm : m < 2 ^ 53) (hu : 2 ^ 52 ≤ u) :
    0 ≤ d := by
  by_contra hnegative
  have hd : (0 : ℚ) < 2 ^ d := zpow_pos two_pos d
  have hm : (m : ℚ) + 1 ≤ 2 ^ 53 := by exact_mod_cast hm
  have hhalf : (2 : ℚ) ^ d ≤ 2 ^ (-1 : Int) := zpow_le_zpow_right₀ one_le_two (by omega)
  have hle := h.upper
  rw [div_le_iff₀ hd] at hle
  have hbound : u ≤ (2 ^ 53 - 1 / 2) * 2 ^ (-1 : Int) :=
    hle.trans (mul_le_mul (by linarith) hhalf hd.le (by norm_num))
  norm_num at hbound hu
  linarith

/-- A number of 53 bits in a larger unit has fewer bits. -/
theorem div_zpow_lt (hu : u < 2 ^ 53) {k : Nat} (hd : k ≤ d) : u / 2 ^ d < 2 ^ 53 / 2 ^ k := by
  have hpos : (0 : ℚ) < 2 ^ d := zpow_pos two_pos d
  have hle : (2 : ℚ) ^ (k : Int) ≤ 2 ^ d := zpow_le_zpow_right₀ one_le_two hd
  rw [zpow_natCast] at hle
  calc u / 2 ^ d < 2 ^ 53 / 2 ^ d := div_lt_div_of_pos_right hu hpos
    _ ≤ 2 ^ 53 / 2 ^ k := div_le_div_of_nonneg_left (by norm_num) (by positivity) hle

/-- A mantissa of 53 bits is nearest to a number of as many bits in a larger unit only if it is the
least one and the unit is twice as large. -/
theorem IsNearest.unit_eq (h : IsNearest m (u / 2 ^ d)) (hm : 2 ^ 52 ≤ m) (hu : u < 2 ^ 53)
    (hd : 0 < d) (hnarrow : m = 2 ^ 52 → (m : ℚ) - 1 / 4 ≤ u / 2 ^ d) : m = 2 ^ 52 ∧ d = 1 := by
  have hm' : m = 2 ^ 52 := by
    have hone : ((1 : Nat) : Int) ≤ d := hd
    have hquotient := div_zpow_lt hu hone
    have hlower := h.lower
    have hlt : (m : ℚ) < 2 ^ 52 + 1 := by linarith
    have hlt : m < 2 ^ 52 + 1 := by exact_mod_cast hlt
    omega
  refine ⟨hm', ?_⟩
  by_contra hne
  have htwo : ((2 : Nat) : Int) ≤ d := by omega
  have hquotient := div_zpow_lt hu htwo
  have hnarrow := hnarrow hm'
  rw [hm'] at hnarrow
  norm_num at hnarrow hquotient
  linarith

end Units

/-- A number that rounds to a double, rounded in units of its own target exponent: the exponents
agree, or the number is just below a power of two and is rounded up to it. -/
theorem RoundsTo.nearest_cases {v : ℚ} {m n : Nat} {e t : Int} (hv : RoundsTo v m e)
    (hc : IsCanonical m e) (hn : IsNearest n (v / 2 ^ t)) (hleast : -1074 ≤ t)
    (hupper : v / 2 ^ t < 2 ^ 53) (hlower : t = -1074 ∨ 2 ^ 52 ≤ v / 2 ^ t) :
    n = m ∧ t = e ∨ n = 2 ^ 53 ∧ m = 2 ^ 52 ∧ e = t + 1 := by
  have hunit : (0 : ℚ) < 2 ^ t := zpow_pos two_pos t
  -- in units of the one exponent and of the other
  obtain ⟨d, rfl⟩ : ∃ d, e = t + d := ⟨e - t, by omega⟩
  have hscale : v / 2 ^ (t + d) = v / 2 ^ t / 2 ^ d := by
    rw [zpow_add₀ two_ne_zero, div_div]
  have hnearest := hv.nearest
  have hnarrow := hv.narrow
  rw [hscale] at hnearest hnarrow
  generalize v / 2 ^ t = u at *
  rcases lt_trichotomy d 0 with hnegative | rfl | hpositive
  · have hu : 2 ^ 52 ≤ u := hlower.resolve_left (by have := hc.least; omega)
    exact absurd (hnearest.unit_le hc.lt hu) (not_le.2 hnegative)
  · rw [zpow_zero, div_one] at hnearest
    exact .inl ⟨hn.unique hnearest, (add_zero t).symm⟩
  · right
    have hm : 2 ^ 52 ≤ m := hc.isNormal.resolve_right (by omega)
    obtain ⟨rfl, rfl⟩ := hnearest.unit_eq hm hupper hpositive fun hm => hnarrow hm (by omega)
    have hnarrow := hnarrow rfl (by omega)
    refine ⟨hn.unique (.of_even ?_ ?_ (by norm_num)), rfl, rfl⟩
    · norm_num at hnarrow ⊢
      linarith
    · norm_num at hupper ⊢
      linarith

/-- **Rounding gives the double that a number rounds to**, if the mantissa has enough bits. -/
theorem roundWithAccuracy_eq (s : UnpackedFloat.Sign) {m n : Nat} {e t : Int} {a : Accuracy}
    {w : ℚ} (h : Represents (.ofMantissaAndAccuracy n a) w)
    (ht : t ≤ Format.binary64.targetExponent (totalExponent n t)) (hc : IsCanonical m e)
    (hv : RoundsTo (w * 2 ^ t) m e) :
    UnpackedFloat.roundWithAccuracy .binary64 s n t a = .finite s m e hc.pos := by
  have hmantissa : (ExtendedMantissa.ofMantissaAndAccuracy n a).mantissa = n := by
    unfold ExtendedMantissa.ofMantissaAndAccuracy
    split <;> rfl
  obtain ⟨hlower, hupper⟩ := h.bounds
  rw [hmantissa] at hlower hupper
  obtain ⟨em, hshift, hem⟩ := exists_shiftToTargetExponent h ht
  obtain ⟨hless, henough⟩ := bounds_targetExponent hlower hupper ht
  have hleast : -1074 ≤ Format.binary64.targetExponent (totalExponent n t) := le_max_right _ _
  unfold UnpackedFloat.roundWithAccuracy
  rw [hshift]
  dsimp only
  rcases hv.nearest_cases hc hem.nearest hleast hless henough with
    ⟨hsame, hexponent⟩ | ⟨hcarry, rfl, hexponent⟩
  · rw [hsame, hexponent, hc.shift]
    exact dif_neg (Nat.ne_of_gt hc.pos)
  · rw [hcarry, shift_carry hleast, ← hexponent]
    exact dif_neg (by norm_num)

/-- Rounding depends on the number alone that a mantissa stands for, if both mantissas have enough
bits. -/
theorem roundWithAccuracy_congr (s : UnpackedFloat.Sign) {n n' : Nat} {t t' : Int} {a a' : Accuracy}
    {w w' : ℚ} (h : Represents (.ofMantissaAndAccuracy n a) w)
    (h' : Represents (.ofMantissaAndAccuracy n' a') w')
    (ht : t ≤ Format.binary64.targetExponent (totalExponent n t))
    (ht' : t' ≤ Format.binary64.targetExponent (totalExponent n' t'))
    (htarget : Format.binary64.targetExponent (totalExponent n t) =
      Format.binary64.targetExponent (totalExponent n' t')) (hvalue : w * 2 ^ t = w' * 2 ^ t') :
    UnpackedFloat.roundWithAccuracy .binary64 s n t a =
      UnpackedFloat.roundWithAccuracy .binary64 s n' t' a' := by
  obtain ⟨em, hshift, hem⟩ := exists_shiftToTargetExponent h ht
  obtain ⟨em', hshift', hem'⟩ := exists_shiftToTargetExponent h' ht'
  rw [← htarget, ← hvalue] at hem'
  -- both rounded mantissas are nearest to the number in the same units
  have hrounded : em.roundedMantissa = em'.roundedMantissa := hem.nearest.unique hem'.nearest
  unfold UnpackedFloat.roundWithAccuracy
  rw [hshift, hshift', ← htarget]
  dsimp only
  rw [hrounded]

section RoundsTo

variable {v : ℚ} {m : Nat} {e : Int}

/-- The value of a double rounds to it. -/
theorem RoundsTo.self (m : Nat) (e : Int) : RoundsTo (m * 2 ^ e) m e := by
  have hquotient : (m * 2 ^ e / 2 ^ e : ℚ) = m := mul_div_cancel_right₀ _ (zpow_pos two_pos e).ne'
  constructor
  · rw [hquotient]
    exact .of_lt (by linarith) (by linarith)
  · intro _ _
    rw [hquotient]
    linarith

/-- Numbers that round to a double are not too small. -/
theorem RoundsTo.lower (hv : RoundsTo v m e) (hc : IsCanonical m e) :
    (2 : ℚ) ^ (-1075 : Int) ≤ v := by
  have hunit : (0 : ℚ) < 2 ^ e := zpow_pos two_pos e
  have hm : (1 : ℚ) ≤ m := by exact_mod_cast hc.pos
  have hhalf : 1 / 2 * 2 ^ e ≤ v := by
    rw [← le_div_iff₀ hunit]
    linarith [hv.nearest.lower]
  have hleast : (2 : ℚ) ^ (-1074 : Int) ≤ 2 ^ e := zpow_le_zpow_right₀ one_le_two hc.least
  have hstep : (2 : ℚ) ^ (-1075 : Int) = 1 / 2 * 2 ^ (-1074 : Int) := by
    rw [show (-1075 : Int) = -1 + -1074 by rfl, zpow_add₀ two_ne_zero, zpow_neg_one, one_div]
  rw [hstep]
  linarith

/-- Numbers that round to a double are not too large. -/
theorem RoundsTo.upper (hv : RoundsTo v m e) (hc : IsCanonical m e) :
    v < (2 : ℚ) ^ (1024 : Int) := by
  have hunit : (0 : ℚ) < 2 ^ e := zpow_pos two_pos e
  have hm : (m : ℚ) + 1 ≤ 2 ^ 53 := by exact_mod_cast hc.lt
  have hless : v < 2 ^ 53 * 2 ^ e := by
    rw [← div_lt_iff₀ hunit]
    linarith [hv.nearest.upper]
  have hgreatest : (2 : ℚ) ^ e ≤ 2 ^ (971 : Int) := zpow_le_zpow_right₀ one_le_two hc.greatest
  calc v < 2 ^ 53 * 2 ^ e := hless
    _ ≤ 2 ^ 53 * 2 ^ (971 : Int) := mul_le_mul_of_nonneg_left hgreatest (by positivity)
    _ = 2 ^ (1024 : Int) := (zpow_add₀ two_ne_zero 53 971).symm

/-- A product that rounds to a double is not zero. -/
theorem RoundsTo.pos {n : Nat} {a : ℚ} (hv : RoundsTo (n * a) m e) (hc : IsCanonical m e) :
    0 < n := by
  apply Nat.pos_of_ne_zero
  rintro rfl
  have hlower := hv.lower hc
  rw [Nat.cast_zero, zero_mul] at hlower
  exact absurd hlower (not_le.2 (zpow_pos two_pos _))

end RoundsTo

/-! ## Products and quotients -/

section Operations

variable {m n k : Nat} {e t r : Int}

/-- A mantissa of 53 bits is long enough, whatever its exponent. -/
theorem le_targetExponent (hn : 2 ^ 52 ≤ n) (t : Int) :
    t ≤ Format.binary64.targetExponent (totalExponent n t) := by
  have hlog : 52 ≤ n.log2 := (Nat.le_log2 (by omega)).2 hn
  rw [targetExponent_eq]
  omega

/-- **A product is rounded to the nearest double.** -/
theorem mul_eq (s s' : UnpackedFloat.Sign) (hn : 0 < n) (hk : 0 < k) (hbits : 2 ^ 52 ≤ n * k)
    (hc : IsCanonical m e) (hv : RoundsTo (n * 2 ^ t * (k * 2 ^ r)) m e) :
    UnpackedFloat.mul .binary64 (.finite s n t hn) (.finite s' k r hk) =
      .finite (s * s') m e hc.pos := by
  have hproduct : (n * 2 ^ t * (k * 2 ^ r) : ℚ) = (n * k : Nat) * 2 ^ (t + r) := by
    rw [zpow_add₀ two_ne_zero]
    push_cast
    ring
  rw [hproduct] at hv
  exact roundWithAccuracy_eq _ (represents_exact _) (le_targetExponent hbits _) hc hv

/-- A quotient of integers has as many bits as its operands differ by. -/
theorem log2_div (hn : 0 < n) (hk : 0 < k) : (n.log2 : Int) - k.log2 - 1 ≤ (n / k).log2 := by
  by_cases hless : n.log2 < k.log2 + 1
  · omega
  · obtain ⟨d, hd⟩ : ∃ d, n.log2 = k.log2 + 1 + d := ⟨n.log2 - (k.log2 + 1), by omega⟩
    have hle : 2 ^ d ≤ n / k := by
      rw [Nat.le_div_iff_mul_le hk]
      calc 2 ^ d * k ≤ 2 ^ d * 2 ^ (k.log2 + 1) := Nat.mul_le_mul_left _ Nat.lt_log2_self.le
        _ = 2 ^ n.log2 := by rw [← pow_add, hd, add_comm]
        _ ≤ n := Nat.log2_self_le (Nat.ne_of_gt hn)
    have hpos : n / k ≠ 0 := fun hzero => by
      rw [hzero] at hle
      exact absurd hle (Nat.not_le.2 (Nat.two_pow_pos d))
    have hlog := (Nat.le_log2 hpos).2 hle
    omega

theorem log2_mul_two_pow (hn : 0 < n) (j : Nat) : (n * 2 ^ j).log2 = n.log2 + j := by
  have hpos : 0 < n * 2 ^ j := Nat.mul_pos hn (Nat.two_pow_pos j)
  rw [Nat.log2_eq_iff (Nat.ne_of_gt hpos), pow_add, add_right_comm, pow_add]
  have hbelow := Nat.log2_self_le (Nat.ne_of_gt hn)
  have habove := Nat.lt_log2_self (n := n)
  exact ⟨Nat.mul_le_mul_right _ hbelow, Nat.mul_lt_mul_of_pos_right habove (Nat.two_pow_pos j)⟩

/-- **A quotient is rounded to the nearest double.** -/
theorem div_eq (s s' : UnpackedFloat.Sign) (hn : 0 < n) (hk : 0 < k) (hc : IsCanonical m e)
    (hv : RoundsTo (n * 2 ^ t / (k * 2 ^ r)) m e) :
    UnpackedFloat.div .binary64 (.finite s n t hn) (.finite s' k r hk) =
      .finite (s / s') m e hc.pos := by
  show (UnpackedFloat.roundWithAccuracy .binary64 (s / s')
    (UnpackedFloat.divCore .binary64 n t k r).1 (UnpackedFloat.divCore .binary64 n t k r).2.1
    (UnpackedFloat.divCore .binary64 n t k r).2.2) = _
  unfold UnpackedFloat.divCore
  dsimp only
  generalize hx : min (t - r)
    (Format.binary64.targetExponent (totalExponent n t - totalExponent k r)) = x
  obtain ⟨j, hj⟩ : ∃ j : Nat, t - r = x + j := ⟨(t - r - x).toNat, by omega⟩
  have hshift : n <<< (t - r - x).toNat = n * 2 ^ j := by
    rw [Nat.shiftLeft_eq]
    congr 2
    omega
  rw [hshift]
  have hquotient : (n * 2 ^ t / (k * 2 ^ r) : ℚ) = (n * 2 ^ j : Nat) / k * 2 ^ x := by
    have hexponent : (2 : ℚ) ^ t = 2 ^ j * 2 ^ x * 2 ^ r := by
      rw [← zpow_natCast, ← zpow_add₀ two_ne_zero, ← zpow_add₀ two_ne_zero]
      congr 1
      omega
    have hr : (2 : ℚ) ^ r ≠ 0 := (zpow_pos two_pos r).ne'
    rw [hexponent]
    push_cast
    field_simp
  rw [hquotient] at hv
  have hpos : 0 < n * 2 ^ j := Nat.mul_pos hn (Nat.two_pow_pos j)
  refine roundWithAccuracy_eq _ (represents_div _ hk) ?_ hc hv
  -- the quotient has enough bits, as its exponent was chosen for it
  have hlog := log2_div hpos hk
  have hlog' := log2_mul_two_pow hn j
  have htarget : x ≤ max ((totalExponent n t - totalExponent k r) - (1 + 52 : Nat))
      (3 - 2 ^ (11 - 1) - (1 + 52 : Nat)) := hx ▸ min_le_right _ _
  rw [targetExponent_eq]
  unfold totalExponent at htarget
  omega

end Operations

end Calculator
