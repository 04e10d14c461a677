import Calculator.Proofs.Number.Nearest
import Calculator.Proofs.Number.Steps

/-!
# Steps on mixed numbers

An operation on numbers of any kinds gives a number, or a failure that is reported at the step
(`contained_operate`). What comes out of it is looked at once more: a double that is not finite is
an overflow if the operands are finite. This look takes integers and doubles for finite, but no
fractions, and an integer beyond the doubles has no answer. The operations never come to that, since
they have made doubles of their operands before they give one that is not finite
(`inRange_of_operate`). So a step on numbers is an overflow exactly if its result is not finite and
its operands are integers or finite doubles, and with a fraction among them the result passes
(`step_number`).
-/

set_option autoImplicit false

namespace Calculator

/-! ## Reported failures -/

section Reports

variable {α β : Type}

/-- A failure, if any, is one that steps report. -/
def Reports : Except Failure α → Prop
  | .ok _ => True
  | .error cause => cause.isContained = true

theorem Reports.bind {x : Except Failure α} {f : α → Except Failure β} (hx : Reports x)
    (hf : ∀ a, Reports (f a)) : Reports (x >>= f) := by
  cases x with
  | error cause => exact hx
  | ok a => exact hf a

theorem Reports.map {x : Except Failure α} (hx : Reports x) (f : α → β) : Reports (f <$> x) := by
  cases x with
  | error cause => exact hx
  | ok a => exact hx

/-- What steps report is contained in them. -/
theorem Reports.contained {x : Except Failure α} (hx : Reports x) :
    Contained (x.mapError .ofFailure) := by
  cases x with
  | ok a => exact trivial
  | error cause =>
      have hmishap : Mishap.ofFailure cause = .failure cause := if_pos hx
      show Contained (.error (.ofFailure cause))
      rw [hmishap]
      exact contained_failure cause

theorem Reports.contained_failure {x : Except Failure α} (hx : Reports x) :
    Contained (x.mapError .failure) := by
  cases x with
  | ok a => exact trivial
  | error cause => exact Calculator.contained_failure cause

theorem Contained.bind {x : Except Mishap α} {f : α → Except Mishap β} (hx : Contained x)
    (hf : ∀ a, Contained (f a)) : Contained (x >>= f) := by
  cases x with
  | error m => exact hx
  | ok a => exact hf a

theorem Contained.map {x : Except Mishap α} (hx : Contained x) (f : α → β) :
    Contained (f <$> x) := by
  cases x with
  | error m => exact hx
  | ok a => exact hx

end Reports

/-- What succeeds does so however failures are renamed. -/
theorem eq_ok_of_mapError {ε ε' α : Type} {f : ε → ε'} {y : Except ε α} {a : α}
    (h : y.mapError f = .ok a) : y = .ok a := by
  cases y with
  | error e => cases h
  | ok b => exact congrArg Except.ok (Except.ok.inj h)

namespace Number

/-! ## Kinds of numbers -/

/-- Whether a number is neither infinite nor NaN. -/
def isFinite : Number → Bool
  | float x => x.isFinite
  | _ => true

/-- Whether a number is an integer or a finite double. -/
def isPlain : Number → Bool
  | int _ => true
  | float x => x.isFinite
  | ratio _ => false

/-- The number is no integer beyond the doubles. -/
def InRange : Number → Prop
  | int n => ∃ x, floatOfInt n = .ok x
  | _ => True

variable {m n : Number} {x : Float}

/-- A finite number is an integer, a finite double or a fraction. -/
theorem isPlain_of_isFinite (h : n.isFinite = true) (hratio : ∀ q, n ≠ .ratio q) :
    n.isPlain = true := by
  cases n with
  | int _ => rfl
  | float x => exact h
  | ratio q => exact absurd rfl (hratio q)

theorem exists_float_of_not_isFinite (h : n.isFinite = false) : ∃ x, n = .float x := by
  cases n with
  | int _ => cases h
  | float x => exact ⟨x, rfl⟩
  | ratio _ => cases h

theorem isFinite_negate (h : n.isFinite = true) : n.negate.isFinite = true := by
  cases n with
  | int _ => rfl
  | float x => exact Calculator.isFinite_neg h
  | ratio _ => rfl

theorem isFinite_withSign (negative : Bool) (h : x.isFinite) : (withSign negative x).isFinite := by
  cases negative with
  | false => exact h
  | true => exact Calculator.isFinite_neg h

/-- An integer is in range if the double nearest to it is finite. -/
theorem inRange_int_iff {n : Int} : (int n).InRange ↔ (floatOfNat n.natAbs).isFinite := by
  have hfloat : floatOfInt n = if (floatOfNat n.natAbs).isFinite then
      .ok (withSign (n < 0) (floatOfNat n.natAbs)) else .error .intTooLarge := rfl
  show (∃ x, floatOfInt n = .ok x) ↔ _
  rw [hfloat]
  split
  · rename_i hfinite
    exact ⟨fun _ => hfinite, fun _ => ⟨_, rfl⟩⟩
  · rename_i hfinite
    refine ⟨?_, fun h => absurd h hfinite⟩
    rintro ⟨x, hx⟩
    cases hx

/-! ## Numbers as doubles -/

theorem reports_floatOfInt (n : Int) : Reports (floatOfInt n) := by
  unfold floatOfInt
  dsimp only
  split
  · trivial
  · exact rfl

theorem reports_divideInts (p q : Int) : Reports (divideInts p q) := by
  unfold divideInts
  dsimp only
  split
  · trivial
  · exact rfl

theorem reports_toFloat (n : Number) : Reports n.toFloat := by
  cases n with
  | int n => exact reports_floatOfInt n
  | float x => trivial
  | ratio q => exact reports_divideInts q.num q.den

/-- A quotient of integers is a finite double, if it is one at all. -/
theorem isFinite_divideInts {p q : Int} (h : divideInts p q = .ok x) : x.isFinite := by
  unfold divideInts at h
  dsimp only at h
  split at h
  · rename_i hfinite
    obtain rfl := Except.ok.inj h
    exact isFinite_withSign _ hfinite
  · cases h

theorem inRange_of_toFloat (h : n.toFloat = .ok x) : n.InRange := by
  cases n with
  | int n => exact ⟨x, h⟩
  | float _ => trivial
  | ratio _ => trivial

/-- An integer that is in range as a fraction is in range. -/
theorem inRange_of_toFloat_ratio {a : Int} (h : (ratio a).toFloat = .ok x) : (int a).InRange := by
  have hquotient : divideInts a 1 = .ok x := h
  unfold divideInts at hquotient
  dsimp only at hquotient
  split at hquotient
  · rename_i hfinite
    apply inRange_int_iff.2
    rcases Nat.eq_zero_or_pos a.natAbs with hzero | hpos
    · rw [hzero]
      decide +kernel
    · rw [← floatOfQuotient_one hpos]
      exact hfinite
  · cases hquotient

section Floats

variable {f : Float → Float → Except Failure Number} {k : Number}

theorem reports_floats (m n : Number) (hf : ∀ x y, Reports (f x y)) :
    Reports (m.toFloat >>= fun x => n.toFloat >>= fun y => f x y) :=
  (reports_toFloat m).bind fun x => (reports_toFloat n).bind fun y => hf x y

/-- Numbers that have become doubles are in range. -/
theorem inRange_of_floats (h : (m.toFloat >>= fun x => n.toFloat >>= fun y => f x y) = .ok k) :
    m.InRange ∧ n.InRange := by
  cases hm : m.toFloat with
  | error cause =>
      rw [hm] at h
      cases h
  | ok x =>
      cases hn : n.toFloat with
      | error cause =>
          rw [hm, hn] at h
          cases h
      | ok y => exact ⟨inRange_of_toFloat hm, inRange_of_toFloat hn⟩

end Floats

/-! ## Sums, products and quotients -/

section Combine

variable {onInt : Int → Int → Int} {onRatio : Rat → Rat → Rat} {onFloat : Float → Float → Float}

theorem reports_combine (m n : Number) : Reports (combine onInt onRatio onFloat m n) := by
  have hsum (x y : Float) : Reports (.ok (float (onFloat x y)) : Except Failure Number) := trivial
  have hfloats := reports_floats m n hsum
  cases m with
  | float x => exact hfloats
  | int a =>
      cases n with
      | float y => exact hfloats
      | int b => trivial
      | ratio b => trivial
  | ratio a =>
      cases n with
      | float y => exact hfloats
      | int b => trivial
      | ratio b => trivial

/-- Operands that give a double have become doubles. -/
theorem inRange_of_combine (h : combine onInt onRatio onFloat m n = .ok (float x)) :
    m.InRange ∧ n.InRange := by
  cases m with
  | float y => exact inRange_of_floats h
  | int a =>
      cases n with
      | float y => exact inRange_of_floats h
      | int b => cases h
      | ratio b => cases h
  | ratio a =>
      cases n with
      | float y => exact inRange_of_floats h
      | int b => cases h
      | ratio b => cases h

end Combine

theorem reports_divideRatios (a b : Rat) : Reports (divideRatios a b) := by
  unfold divideRatios
  split
  · exact rfl
  · trivial

theorem divideRatios_ne_float {a b : Rat} : divideRatios a b ≠ .ok (float x) := by
  unfold divideRatios
  split
  · exact fun h => by cases h
  · exact fun h => by cases h

theorem reports_divide (m n : Number) : Reports (divide m n) := by
  have hquotient (x y : Float) :
      Reports (if y == 0 then throw .floatDivision else pure (float (x / y)) :
        Except Failure Number) := by
    split
    · exact rfl
    · trivial
  have hfloats := reports_floats m n hquotient
  cases m with
  | float x => exact hfloats
  | int a =>
      cases n with
      | float y => exact hfloats
      | int b =>
          show Reports (if b = 0 then .error .intDivision else float <$> divideInts a b)
          split
          · exact rfl
          · exact (reports_divideInts a b).map float
      | ratio b => exact reports_divideRatios a b
  | ratio a =>
      cases n with
      | float y => exact hfloats
      | int b => exact reports_divideRatios a b
      | ratio b => exact reports_divideRatios a b

/-- Operands with a quotient that is not finite have become doubles. -/
theorem inRange_of_divide (h : divide m n = .ok (float x)) (hx : x.isFinite = false) :
    m.InRange ∧ n.InRange := by
  cases m with
  | float y => exact inRange_of_floats h
  | int a =>
      cases n with
      | float y => exact inRange_of_floats h
      | int b =>
          have hquotient : (if b = 0 then .error .intDivision else float <$> divideInts a b) =
              .ok (float x) := h
          split at hquotient
          · cases hquotient
          · -- the quotient of two integers is finite
            cases hdivide : divideInts a b with
            | error cause =>
                rw [hdivide] at hquotient
                cases hquotient
            | ok y =>
                rw [hdivide] at hquotient
                cases hquotient
                rw [isFinite_divideInts hdivide] at hx
                cases hx
      | ratio b => exact absurd h divideRatios_ne_float
  | ratio a =>
      cases n with
      | float y => exact inRange_of_floats h
      | int b => exact absurd h divideRatios_ne_float
      | ratio b => exact absurd h divideRatios_ne_float

/-! ## Powers -/

theorem reports_ratioPower (q : Rat) (n : Int) : Reports (ratioPower q n) := by
  cases n with
  | ofNat k => trivial
  | negSucc k =>
      show Reports (if q = 0 then .error (.ratioDivision 1) else .ok (ratioNatPower q⁻¹ (k + 1)))
      split
      · exact rfl
      · trivial

theorem contained_ratioPower (q : Rat) (n : Int) :
    Contained (ratio <$> (ratioPower q n).mapError .failure) :=
  (reports_ratioPower q n).contained_failure.map ratio

theorem ratioPower_ne_float {q : Rat} {n : Int} :
    ratio <$> (ratioPower q n).mapError Mishap.failure ≠ .ok (float x) := by
  intro h
  cases hpower : ratioPower q n with
  | error cause =>
      rw [hpower] at h
      cases h
  | ok r =>
      rw [hpower] at h
      cases h

theorem contained_powerAsFloats (m n : Number) : Contained (powerAsFloats m n) := by
  apply (reports_toFloat m).contained_failure.bind
  intro x
  apply (reports_toFloat n).contained_failure.bind
  intro y
  exact (contained_floatPower x y).map float

/-- A base and an exponent whose power is one of doubles have become doubles. -/
theorem exists_toFloat_of_powerAsFloats {k : Number} (h : powerAsFloats m n = .ok k) :
    (∃ x, m.toFloat = .ok x) ∧ ∃ y, n.toFloat = .ok y := by
  unfold powerAsFloats at h
  cases hm : m.toFloat with
  | error cause =>
      rw [hm] at h
      cases h
  | ok x =>
      cases hn : n.toFloat with
      | error cause =>
          rw [hm, hn] at h
          cases h
      | ok y => exact ⟨⟨x, rfl⟩, y, rfl⟩

theorem inRange_of_powerAsFloats {k : Number} (h : powerAsFloats m n = .ok k) :
    m.InRange ∧ n.InRange := by
  obtain ⟨⟨x, hx⟩, y, hy⟩ := exists_toFloat_of_powerAsFloats h
  exact ⟨inRange_of_toFloat hx, inRange_of_toFloat hy⟩

/-- A power of numbers fails only in ways that are reported. -/
theorem contained_power (m n : Number) : Contained (power m n) := by
  cases m with
  | float x =>
      cases n with
      | float y => exact contained_powerAsFloats _ _
      | int b => exact contained_powerAsFloats _ _
      | ratio b => exact contained_ite (contained_powerAsFloats _ _) (contained_powerAsFloats _ _)
  | int a =>
      cases n with
      | float y => exact contained_powerAsFloats _ _
      | int b => exact contained_ite (contained_ok _) (contained_powerAsFloats _ _)
      | ratio b =>
          apply contained_ite
          · exact contained_ite (contained_ok _) (contained_ratioPower _ _)
          · exact contained_powerAsFloats _ _
  | ratio a =>
      cases n with
      | float y => exact contained_powerAsFloats _ _
      | int b => exact contained_ratioPower _ _
      | ratio b => exact contained_ite (contained_ratioPower _ _) (contained_powerAsFloats _ _)

/-- A base and an exponent whose power is a double have become doubles. -/
theorem inRange_of_power (h : power m n = .ok (float x)) : m.InRange ∧ n.InRange := by
  cases m with
  | float y =>
      cases n with
      | float z => exact inRange_of_powerAsFloats h
      | int b => exact inRange_of_powerAsFloats h
      | ratio b => exact ⟨trivial, trivial⟩
  | int a =>
      cases n with
      | float z => exact inRange_of_powerAsFloats h
      | int b =>
          have hpower : (if 0 ≤ b then .ok (int (intPower a b.toNat))
              else powerAsFloats (int a) (int b)) = .ok (float x) := h
          split at hpower
          · cases hpower
          · exact inRange_of_powerAsFloats hpower
      | ratio b =>
          have hpower : (if b.den = 1 then
              if 0 ≤ b.num then .ok (int (intPower a b.num.toNat))
              else ratio <$> (ratioPower a b.num).mapError .failure
            else powerAsFloats (ratio a) (ratio b)) = .ok (float x) := h
          split at hpower
          · split at hpower
            · cases hpower
            · exact absurd hpower ratioPower_ne_float
          · -- the integer became a double as a fraction
            obtain ⟨⟨y, hy⟩, -⟩ := exists_toFloat_of_powerAsFloats hpower
            exact ⟨inRange_of_toFloat_ratio hy, trivial⟩
  | ratio a =>
      cases n with
      | float z => exact ⟨trivial, trivial⟩
      | int b => exact absurd h ratioPower_ne_float
      | ratio b => exact ⟨trivial, trivial⟩

/-! ## Operations -/

/-- A binary operation on numbers. -/
def operate : Operation → Number → Number → Except Mishap Number
  | .add, m, n => (add m n).mapError .ofFailure
  | .subtract, m, n => (subtract m n).mapError .ofFailure
  | .multiply, m, n => (multiply m n).mapError .ofFailure
  | .divide, m, n => (divide m n).mapError .ofFailure
  | .power, m, n => power m n

/-- On numbers the operations on data are those on numbers. -/
theorem operate_number (op : Operation) (m n : Number) :
    Datum.operate op (.number m) (.number n) = .number <$> operate op m n := by
  have hmap (x : Except Failure Number) : (Datum.number <$> x).mapError Mishap.ofFailure =
      Datum.number <$> x.mapError Mishap.ofFailure := by
    cases x with
    | error cause => rfl
    | ok k => rfl
  cases op with
  | add => exact hmap (add m n)
  | subtract => exact hmap (subtract m n)
  | multiply => exact hmap (multiply m n)
  | divide => exact hmap (divide m n)
  | power => rfl

/-- What an operation gives on numbers is a number. -/
theorem exists_of_operate {op : Operation} {d : Datum}
    (h : Datum.operate op (.number m) (.number n) = .ok d) :
    ∃ k, operate op m n = .ok k ∧ d = .number k := by
  rw [operate_number] at h
  cases hk : operate op m n with
  | error mishap =>
      rw [hk] at h
      cases h
  | ok k =>
      rw [hk] at h
      exact ⟨k, rfl, (Except.ok.inj h).symm⟩

/-- **An operation on numbers fails only in ways that are reported.** -/
theorem contained_operate (op : Operation) (m n : Number) : Contained (operate op m n) := by
  cases op with
  | add => exact (reports_combine m n).contained
  | subtract => exact (reports_combine m n).contained
  | multiply => exact (reports_combine m n).contained
  | divide => exact (reports_divide m n).contained
  | power => exact contained_power m n

/-- **Operands with a result that is not finite are in the range of doubles.** -/
theorem inRange_of_operate {op : Operation} (h : operate op m n = .ok (float x))
    (hx : x.isFinite = false) : m.InRange ∧ n.InRange := by
  cases op with
  | add => exact inRange_of_combine (eq_ok_of_mapError h)
  | subtract => exact inRange_of_combine (eq_ok_of_mapError h)
  | multiply => exact inRange_of_combine (eq_ok_of_mapError h)
  | divide => exact inRange_of_divide (eq_ok_of_mapError h) hx
  | power => exact inRange_of_power h

end Number

/-! ## Results that are looked at -/

namespace Datum

open Number (isPlain)

variable {operands : List Number} {n : Number} {x : Float}

/-- Numbers in range are looked at one by one. -/
theorem allFinite_numbers (h : ∀ n ∈ operands, n.InRange) :
    allFinite (operands.map .number) = .ok (operands.all isPlain) := by
  induction operands with
  | nil => rfl
  | cons n rest ih =>
      have hrest := ih fun k hk => h k (List.mem_cons_of_mem n hk)
      rw [List.map_cons, List.all_cons]
      cases n with
      | int a =>
          obtain ⟨y, hy⟩ := h (.int a) List.mem_cons_self
          show (Number.floatOfInt a >>= fun _ => allFinite (rest.map .number)) = _
          rw [hy]
          exact hrest
      | float y =>
          show (if y.isFinite then allFinite (rest.map .number) else .ok false) = _
          cases hy : y.isFinite with
          | true =>
              rw [if_pos rfl, hrest]
              simp [isPlain, hy]
          | false => simp [isPlain, hy]
      | ratio q => rfl

/-- A finite result stays. -/
theorem settle_of_isFinite (operands : List Datum) (h : n.isFinite = true) :
    settle operands (.number n) = .ok (.number n) := by
  cases n with
  | int a => rfl
  | float y => exact if_pos h
  | ratio q => rfl

/-- A result that is not finite is an overflow of operands that are integers or finite doubles, and
stays with all others. -/
theorem settle_of_not_isFinite (h : ∀ n ∈ operands, n.InRange) (hx : x.isFinite = false) :
    settle (operands.map .number) (double x) =
      if operands.all isPlain then .error .overflow else .ok (double x) :=
  settle_of_allFinite (allFinite_numbers h) hx

/-- With an integer beyond the doubles there is no answer. -/
theorem settle_of_not_inRange (h : ¬ n.InRange) (hx : x.isFinite = false) :
    settle [.number n] (double x) = .error (.escaped .intTooLarge) := by
  apply settle_of_allFinite_error ?_ hx
  cases n with
  | int a =>
      have hlarge : Number.floatOfInt a = .error .intTooLarge :=
        if_neg fun hfinite => h (Number.inRange_int_iff.2 hfinite)
      show (Number.floatOfInt a >>= fun _ => allFinite []) = _
      rw [hlarge]
      rfl
  | float _ => exact absurd trivial h
  | ratio _ => exact absurd trivial h

/-- **A step of an operator on numbers** is an overflow exactly if its result is not finite and both
operands are integers or finite doubles. In all other cases it is what the operation gives. -/
theorem step_number (op : Operation) (m n : Number) :
    step op (.number m) (.number n) =
      Number.operate op m n >>= fun k =>
        if k.isFinite = false ∧ m.isPlain = true ∧ n.isPlain = true then .error .overflow
        else .ok (.number k) := by
  rw [step, Number.operate_number]
  cases hresult : Number.operate op m n with
  | error mishap => rfl
  | ok k =>
      show settle [.number m, .number n] (.number k) = ite _ _ _
      cases hk : k.isFinite with
      | true =>
          rw [settle_of_isFinite _ hk, if_neg]
          rintro ⟨h, -⟩
          cases h
      | false =>
          obtain ⟨x, rfl⟩ := Number.exists_float_of_not_isFinite hk
          obtain ⟨hm, hn⟩ := Number.inRange_of_operate hresult hk
          have hoperands : ∀ k ∈ [m, n], k.InRange := by
            simpa using ⟨hm, hn⟩
          have hsettle := settle_of_not_isFinite hoperands hk
          refine hsettle.trans ?_
          simp [double]

end Datum

end Calculator
