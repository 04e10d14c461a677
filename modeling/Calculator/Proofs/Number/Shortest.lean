import Calculator.Decimal.Shortest
import Calculator.Proofs.Number.Rounding
import Mathlib.Data.Nat.Cast.Order.Field

/-!
# Shortest decimal numbers

The shortest decimal number for a double rounds to it (`shortest_spec`). What is found on a grid of
decimal numbers lies in the interval of the double (`Interval.holds_of_neighbour?`), and that
interval ends halfway to the next doubles (`Interval.roundsTo_of_holds`). Something is found with
seventeen digits, as a grid that fine has a number less than half of the last place away from each
double (`Interval.exists_neighbour?_seventeen`).
-/

set_option autoImplicit false

namespace Calculator.Decimal

/-! ## Digits -/

/-- A positive number has its first digit at the place that its length tells. -/
theorem pow_digitCount_le {n : Nat} (hn : 0 < n) : 10 ^ (digitCount n - 1) ≤ n := by
  by_contra hless
  have hpos : 0 < digitCount n - 1 := by
    apply Nat.pos_of_ne_zero
    intro hzero
    rw [hzero] at hless
    exact hless hn
  have hlength := (Nat.length_toDigits_le_iff (b := 10) (by decide) hpos).2 (Nat.lt_of_not_le hless)
  change digitCount n ≤ digitCount n - 1 at hlength
  omega

theorem digitCount_pos (n : Nat) : 0 < digitCount n :=
  Nat.length_toDigits_pos

theorem lt_pow_digitCount (n : Nat) : n < 10 ^ digitCount n :=
  (Nat.length_toDigits_le_iff (by decide) (digitCount_pos n)).1 (Nat.le_refl _)

/-- A quotient is at least the power of ten of its magnitude. -/
theorem Quotient.pow_magnitude_le {q : Quotient} (hnum : 0 < q.num) (hden : 0 < q.den) :
    (10 : ℚ) ^ q.magnitude ≤ q.num / q.den := by
  have hden' : (0 : ℚ) < q.den := by exact_mod_cast hden
  unfold Quotient.magnitude
  split
  · rename_i hle
    have hpos : 0 < q.num / q.den := Nat.div_pos hle hden
    have hpow : ((10 : ℚ) ^ (digitCount (q.num / q.den) - 1)) ≤ (q.num / q.den : Nat) := by
      exact_mod_cast pow_digitCount_le hpos
    have hexponent : (digitCount (q.num / q.den) : Int) - 1 =
        (digitCount (q.num / q.den) - 1 : Nat) := by
      have := digitCount_pos (q.num / q.den)
      omega
    rw [hexponent, zpow_natCast]
    exact hpow.trans Nat.cast_div_le
  · rename_i hless
    have hlt : q.den - 1 < 10 ^ digitCount ((q.den - 1) / q.num) * q.num := by
      rw [← Nat.div_lt_iff_lt_mul hnum]
      exact lt_pow_digitCount _
    have hle : (q.den : ℚ) ≤ 10 ^ digitCount ((q.den - 1) / q.num) * q.num := by
      exact_mod_cast (by omega : q.den ≤ 10 ^ digitCount ((q.den - 1) / q.num) * q.num)
    rw [zpow_neg, zpow_natCast, le_div_iff₀ hden', inv_mul_le_iff₀ (by positivity)]
    exact hle

/-! ## Scaled numbers -/

/-- The value of a decimal number. -/
def Scaled.value (s : Scaled) : ℚ := s.digits * 10 ^ s.exponent

/-- Without zeros at its end a decimal number is the same. -/
theorem Scaled.trimFrom_spec (fuel : Nat) {s : Scaled} (h : 0 < s.digits) :
    0 < (trimFrom fuel s).digits ∧ (trimFrom fuel s).value = s.value := by
  induction fuel generalizing s with
  | zero => exact ⟨h, rfl⟩
  | succ fuel ih =>
      unfold trimFrom
      split
      · rename_i hzero
        have hpos : 0 < s.digits / 10 := by omega
        obtain ⟨hdigits, hvalue⟩ := ih (s := ⟨s.digits / 10, s.exponent + 1⟩) hpos
        refine ⟨hdigits, hvalue.trans ?_⟩
        have hten : (s.digits : ℚ) = (s.digits / 10 : Nat) * 10 := by
          exact_mod_cast (by omega : s.digits = s.digits / 10 * 10)
        unfold value
        rw [hten, zpow_add_one₀ (by norm_num)]
        ring
      · exact ⟨h, rfl⟩

theorem Scaled.trim_spec {s : Scaled} (h : 0 < s.digits) :
    0 < s.trim.digits ∧ s.trim.value = s.value := by
  unfold trim
  rw [if_neg (Nat.ne_of_gt h)]
  exact trimFrom_spec _ h

/-! ## Intervals -/

namespace Interval

/-- The ends and the double of an interval, as rational numbers. -/
structure Spans (i : Interval) (low value high : ℚ) : Prop where
  den_pos : 0 < i.den
  low_eq : (i.low : ℚ) = low * i.den
  value_eq : (i.value : ℚ) = value * i.den
  high_eq : (i.high : ℚ) = high * i.den

variable {i : Interval} {low value high : ℚ}

theorem closed_shift (i : Interval) (k : Int) : (i.shift k).closed = i.closed := by
  cases k with
  | ofNat k => rfl
  | negSucc k => rfl

theorem cast_pow (b k : Nat) : ((Nat.pow b k : Nat) : ℚ) = (b : ℚ) ^ k :=
  Nat.cast_pow b k

/-- An interval in units of a power of ten. -/
theorem Spans.shift (h : i.Spans low value high) (k : Int) :
    (i.shift k).Spans (low / 10 ^ k) (value / 10 ^ k) (high / 10 ^ k) := by
  obtain ⟨hden, hlow, hvalue, hhigh⟩ := h
  cases k with
  | ofNat k =>
      have hcancel (a : ℚ) : a * i.den = a / 10 ^ (Int.ofNat k) * (i.den * Nat.pow 10 k : Nat) := by
        have hpow : (10 : ℚ) ^ (Int.ofNat k) = 10 ^ k := zpow_natCast _ _
        rw [hpow, Nat.cast_mul, cast_pow]
        field_simp
        push_cast
        rfl
      exact ⟨Nat.mul_pos hden (Nat.pow_pos (by decide)), hlow.trans (hcancel low),
        hvalue.trans (hcancel value), hhigh.trans (hcancel high)⟩
  | negSucc k =>
      have hcancel (a : ℚ) : a * i.den * 10 ^ (k + 1) = a / 10 ^ (Int.negSucc k) * i.den := by
        have hpow : (10 : ℚ) ^ (Int.negSucc k) = (10 ^ (k + 1))⁻¹ := zpow_negSucc _ _
        rw [hpow, div_inv_eq_mul]
        ring
      have hscaled {n : Nat} {a : ℚ} (hn : (n : ℚ) = a * i.den) :
          ((n * Nat.pow 10 (k + 1) : Nat) : ℚ) = a / 10 ^ (Int.negSucc k) * i.den := by
        rw [← hcancel, ← hn, Nat.cast_mul, cast_pow]
        rfl
      exact ⟨hden, hscaled hlow, hscaled hvalue, hscaled hhigh⟩

theorem Spans.holds_iff (h : i.Spans low value high) (n : Nat) :
    i.holds n = true ↔
      if i.closed then low ≤ n ∧ (n : ℚ) ≤ high else low < n ∧ (n : ℚ) < high := by
  have hden : (0 : ℚ) < i.den := by exact_mod_cast h.den_pos
  have hlow : low ≤ n ↔ i.low ≤ n * i.den := by
    rw [← Nat.cast_le (α := ℚ), h.low_eq]
    push_cast
    exact (mul_le_mul_iff_left₀ hden).symm
  have hhigh : (n : ℚ) ≤ high ↔ n * i.den ≤ i.high := by
    rw [← Nat.cast_le (α := ℚ), h.high_eq]
    push_cast
    exact (mul_le_mul_iff_left₀ hden).symm
  have hlow' : low < n ↔ i.low < n * i.den := by
    rw [← Nat.cast_lt (α := ℚ), h.low_eq]
    push_cast
    exact (mul_lt_mul_iff_left₀ hden).symm
  have hhigh' : (n : ℚ) < high ↔ n * i.den < i.high := by
    rw [← Nat.cast_lt (α := ℚ), h.high_eq]
    push_cast
    exact (mul_lt_mul_iff_left₀ hden).symm
  rw [hlow, hhigh, hlow', hhigh']
  unfold holds
  split
  · rw [Bool.and_eq_true, decide_eq_true_iff, decide_eq_true_iff]
  · rw [Bool.and_eq_true, decide_eq_true_iff, decide_eq_true_iff]

/-- A neighbour of a double is in its interval. -/
theorem holds_of_neighbour? {n : Nat} (h : i.neighbour? = some n) : i.holds n = true := by
  unfold neighbour? at h
  dsimp only at h
  split at h
  · rename_i hbelow habove
    obtain rfl := Option.some.inj h
    -- the nearer one is one of the two
    unfold roundHalfEven
    dsimp only
    split
    · exact hbelow
    · split
      · exact habove
      · split
        · exact hbelow
        · exact habove
  · rename_i hbelow _
    obtain rfl := Option.some.inj h
    exact hbelow
  · rename_i _ habove
    obtain rfl := Option.some.inj h
    exact habove
  · cases h

/-- If an interval reaches further than one half to both sides, it holds a neighbour. -/
theorem Spans.exists_neighbour? (h : i.Spans low value high) (hlow : low < value - 1 / 2)
    (hhigh : value + 1 / 2 < high) : ∃ n, i.neighbour? = some n := by
  have hden : (0 : ℚ) < i.den := by exact_mod_cast h.den_pos
  have hvalue : (i.value / i.den : ℚ) = value := by
    rw [h.value_eq, mul_div_cancel_right₀ _ hden.ne']
  have hbelow : ((i.value / i.den : Nat) : ℚ) ≤ value := hvalue ▸ Nat.cast_div_le
  have habove : value < (i.value / i.den : Nat) + 1 := by
    rw [← hvalue, div_lt_iff₀ hden]
    have hlt := Nat.lt_mul_div_succ i.value h.den_pos
    rw [Nat.mul_comm] at hlt
    exact_mod_cast hlt
  have hholds {n : Nat} (hn : low < n) (hn' : (n : ℚ) < high) : i.holds n = true := by
    rw [h.holds_iff]
    split
    · exact ⟨hn.le, hn'.le⟩
    · exact ⟨hn, hn'⟩
  unfold neighbour?
  dsimp only
  generalize i.value / i.den = n at hbelow habove ⊢
  rcases le_or_gt value (n + 1 / 2) with hnear | hfar
  · have hn := hholds (n := n) (by linarith) (by linarith)
    rw [hn]
    cases i.holds (n + 1) with
    | true => exact ⟨_, rfl⟩
    | false => exact ⟨_, rfl⟩
  · have hn := hholds (n := n + 1) (by push_cast; linarith) (by push_cast; linarith)
    rw [hn]
    cases i.holds n with
    | true => exact ⟨_, rfl⟩
    | false => exact ⟨_, rfl⟩

/-! ### Intervals of doubles -/

/-- How far the interval of a double reaches down, in fourths of its last place. -/
def reach (m : Nat) (e : Int) : Nat := if m = Nat.pow 2 52 ∧ -1074 < e then 1 else 2

theorem reach_le_two (m : Nat) (e : Int) : reach m e ≤ 2 := by
  unfold reach
  split
  · omega
  · omega

/-- **The interval of a double reaches to the middle between it and the next ones.** -/
theorem spans_ofBinary {m : Nat} (hm : 0 < m) (e : Int) :
    (ofBinary m e).Spans ((m - reach m e / 4) * 2 ^ e) (m * 2 ^ e) ((m + 1 / 2) * 2 ^ e) := by
  have hreach : reach m e ≤ 4 * m := (reach_le_two m e).trans (by omega)
  have hfourth : (2 : ℚ) ^ e = 4 * 2 ^ (e - 2) := by
    rw [zpow_sub₀ two_ne_zero]
    norm_num
    ring
  have hlow : ((4 * m - reach m e : Nat) : ℚ) = 4 * m - reach m e := by
    push_cast [hreach]
    rfl
  have hsum : ((4 * m + 2 : Nat) : ℚ) = 4 * m + 2 := by
    push_cast
    rfl
  have hmiddle : ((4 * m : Nat) : ℚ) = 4 * m := by
    push_cast
    rfl
  unfold ofBinary
  rw [hfourth]
  cases e - 2 with
  | ofNat k =>
      have hpow : (2 : ℚ) ^ (Int.ofNat k) = 2 ^ k := zpow_natCast _ _
      have hscale (a : Nat) (b : ℚ) (hab : (a : ℚ) = 4 * b) :
          ((a * Nat.pow 2 k : Nat) : ℚ) = b * (4 * 2 ^ (Int.ofNat k)) * (1 : Nat) := by
        rw [Nat.cast_mul, cast_pow, hpow, hab]
        push_cast
        ring
      exact ⟨Nat.one_pos, hscale _ _ (hlow.trans (by ring)), hscale _ _ hmiddle,
        hscale _ _ (hsum.trans (by ring))⟩
  | negSucc k =>
      have hpow : (2 : ℚ) ^ (Int.negSucc k) = (2 ^ (k + 1))⁻¹ := zpow_negSucc _ _
      have hscale (a : Nat) (b : ℚ) (hab : (a : ℚ) = 4 * b) :
          ((a * 1 : Nat) : ℚ) = b * (4 * 2 ^ (Int.negSucc k)) * (Nat.pow 2 (k + 1) : Nat) := by
        rw [Nat.mul_one, cast_pow, hpow, hab]
        push_cast
        field_simp
      exact ⟨Nat.pow_pos (by decide), hscale _ _ (hlow.trans (by ring)), hscale _ _ hmiddle,
        hscale _ _ (hsum.trans (by ring))⟩

theorem closed_ofBinary (m : Nat) (e : Int) : (ofBinary m e).closed = decide (m % 2 = 0) := rfl

/-- **A decimal number in the interval of a double rounds to it.** -/
theorem roundsTo_of_holds {m n : Nat} {e k : Int} (hc : IsCanonical m e)
    (h : ((ofBinary m e).shift k).holds n = true) : RoundsTo (n * 10 ^ k) m e := by
  have hunit : (0 : ℚ) < 2 ^ e := zpow_pos two_pos e
  have hten : (0 : ℚ) < 10 ^ k := by positivity
  have hspans := (spans_ofBinary hc.pos e).shift k
  rw [hspans.holds_iff, closed_shift, closed_ofBinary] at h
  -- in units of the last place
  have hle (a : ℚ) : a * 2 ^ e / 10 ^ k ≤ n ↔ a ≤ n * 10 ^ k / 2 ^ e := by
    rw [div_le_iff₀ hten, le_div_iff₀ hunit]
  have hge (a : ℚ) : n ≤ a * 2 ^ e / 10 ^ k ↔ n * 10 ^ k / 2 ^ e ≤ a := by
    rw [le_div_iff₀ hten, div_le_iff₀ hunit]
  have hlt (a : ℚ) : a * 2 ^ e / 10 ^ k < n ↔ a < n * 10 ^ k / 2 ^ e := by
    rw [div_lt_iff₀ hten, lt_div_iff₀ hunit]
  have hgt (a : ℚ) : n < a * 2 ^ e / 10 ^ k ↔ n * 10 ^ k / 2 ^ e < a := by
    rw [lt_div_iff₀ hten, div_lt_iff₀ hunit]
  rw [hle, hge, hlt, hgt] at h
  have hreach : (reach m e : ℚ) ≤ 2 := by exact_mod_cast reach_le_two m e
  constructor
  · split at h
    · rename_i heven
      exact .of_even (by linarith) h.2 (of_decide_eq_true heven)
    · exact .of_lt (by linarith) h.2
  · intro hm he
    have hone : reach m e = 1 := if_pos ⟨hm, he⟩
    rw [hone] at h
    split at h
    · exact_mod_cast h.1
    · exact_mod_cast h.1.le

/-- With seventeen digits there is a decimal number in the interval of a double. -/
theorem exists_neighbour?_seventeen {m : Nat} {e k : Int} (hc : IsCanonical m e)
    (hk : (10 : ℚ) ^ (k + 16) ≤ m * 2 ^ e) :
    ∃ n, ((ofBinary m e).shift k).neighbour? = some n := by
  have hten : (0 : ℚ) < 10 ^ k := by positivity
  have hspans := (spans_ofBinary hc.pos e).shift k
  -- the place of the double in units of the power of ten
  have hplace : (10 : ℚ) ^ 16 ≤ m * (2 ^ e / 10 ^ k) := by
    rw [← mul_div_assoc, le_div_iff₀ hten]
    rw [zpow_add₀ (by norm_num), mul_comm] at hk
    exact_mod_cast hk
  have hunit : (0 : ℚ) < 2 ^ e / 10 ^ k := by positivity
  simp only [mul_div_assoc] at hspans
  generalize (2 : ℚ) ^ e / 10 ^ k = h at *
  have hm : (m : ℚ) ≤ 2 ^ 53 := by exact_mod_cast hc.lt.le
  have hone : 1 < h := by
    by_contra hle
    have hbound : m * h ≤ 2 ^ 53 * 1 := mul_le_mul hm (le_of_not_gt hle) hunit.le (by norm_num)
    norm_num at hplace hbound
    linarith
  have hreach : 2 < reach m e * h := by
    unfold reach
    split
    · rename_i hpower
      have hm' : (m : ℚ) = 2 ^ 52 := by exact_mod_cast hpower.1
      rw [hm'] at hplace
      norm_num at hplace ⊢
      linarith
    · push_cast
      linarith
  exact hspans.exists_neighbour? (by linarith) (by linarith)

end Interval

/-! ## Shortest decimal numbers -/

/-- **The shortest decimal number for a double rounds to it.** -/
theorem shortest_spec {m : Nat} {e : Int} (hc : IsCanonical m e) :
    0 < (shortest m e).digits ∧ RoundsTo (shortest m e).value m e := by
  have hspans := Interval.spans_ofBinary hc.pos e
  have hden : (0 : ℚ) < (Interval.ofBinary m e).den := by exact_mod_cast hspans.den_pos
  unfold shortest
  dsimp only
  split
  · rename_i s hs
    obtain ⟨count, -, hcount⟩ := List.exists_of_findSome?_eq_some hs
    obtain ⟨n, hn, rfl⟩ := Option.map_eq_some_iff.1 hcount
    have hv := Interval.roundsTo_of_holds hc (Interval.holds_of_neighbour? hn)
    obtain ⟨hdigits, hvalue⟩ := Scaled.trim_spec (s := ⟨n, _⟩) (hv.pos hc)
    exact ⟨hdigits, hvalue ▸ hv⟩
  · -- the last grid has a neighbour
    exfalso
    rename_i hnone
    have hseventeen := List.findSome?_eq_none_iff.1 hnone 17 (by decide)
    have hvalue : (0 : ℚ) < (Interval.ofBinary m e).value := by
      have hm : (0 : ℚ) < m := by exact_mod_cast hc.pos
      rw [hspans.value_eq]
      positivity
    have htop := Quotient.pow_magnitude_le
      (q := ⟨(Interval.ofBinary m e).value, (Interval.ofBinary m e).den⟩)
      (by exact_mod_cast hvalue) hspans.den_pos
    dsimp only at htop
    rw [hspans.value_eq, mul_div_cancel_right₀ _ hden.ne'] at htop
    generalize Quotient.magnitude _ = top at htop hseventeen
    have hk : top + 1 - (17 : Nat) + 16 = top := by omega
    obtain ⟨n, hn⟩ := Interval.exists_neighbour?_seventeen (k := top + 1 - (17 : Nat)) hc
      (hk.symm ▸ htop)
    rw [hn] at hseventeen
    cases hseventeen

end Calculator.Decimal
