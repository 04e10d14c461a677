import Calculator.Proofs.Number.Finite
import Calculator.Vocabulary

/-!
# Steps on doubles

What the operations and elementary functions make of doubles: a double, or a failure that is
reported at the step. A step whose operands are finite has a finite result, or it fails
(`regular_step`, `regular_apply`).
-/

set_option autoImplicit false

namespace Calculator

/-- A double as a datum. -/
def double (x : Float) : Datum := .number (.float x)

/-- The result of a step is a double, which is finite under the given condition, or the step fails
in a way that is reported. -/
def Regular (finite : Prop) : Except Mishap Datum → Prop
  | .ok v => ∃ x, v = double x ∧ (finite → x.isFinite)
  | .error m => ∀ cause, m ≠ .escaped cause

/-- A failure, if any, is reported at the step. -/
def Contained {α : Type} : Except Mishap α → Prop
  | .ok _ => True
  | .error m => ∀ cause, m ≠ .escaped cause

/-! ## Results that are looked at -/

/-- Doubles are all finite if each of them is. -/
theorem allFinite_double {rest : List Datum} {b : Bool} (x : Float)
    (h : Datum.allFinite rest = .ok b) :
    Datum.allFinite (double x :: rest) = .ok (x.isFinite && b) := by
  show (if x.isFinite then Datum.allFinite rest else .ok false) = _
  cases x.isFinite with
  | true => exact h
  | false => rfl

/-- What is not finite is an overflow of operands that are looked at as finite. -/
theorem settle_of_allFinite {operands : List Datum} {b : Bool} {y : Float}
    (h : Datum.allFinite operands = .ok b) (hy : y.isFinite = false) :
    Datum.settle operands (double y) = if b then .error .overflow else .ok (double y) := by
  apply (if_neg (Bool.eq_false_iff.1 hy)).trans
  rw [h]
  cases b <;> rfl

/-- Operands that cannot be looked at fail without a report. -/
theorem settle_of_allFinite_error {operands : List Datum} {cause : Failure} {y : Float}
    (h : Datum.allFinite operands = .error cause) (hy : y.isFinite = false) :
    Datum.settle operands (double y) = .error (.escaped cause) := by
  apply (if_neg (Bool.eq_false_iff.1 hy)).trans
  rw [h]

/-- A double that is looked at is an overflow if it is not finite although all operands are. -/
theorem regular_settle {operands : List Datum} {b : Bool} {finite : Prop}
    (h : Datum.allFinite operands = .ok b) (hfinite : finite → b) (y : Float) :
    Regular finite (Datum.settle operands (double y)) := by
  cases hy : y.isFinite with
  | true =>
      have hkept : Datum.settle operands (double y) = .ok (double y) := if_pos hy
      rw [hkept]
      exact ⟨y, rfl, fun _ => hy⟩
  | false =>
      rw [settle_of_allFinite h hy]
      cases b with
      | true => exact fun cause hcause => by cases hcause
      | false => exact ⟨y, rfl, fun hall => by cases hfinite hall⟩

theorem regular_settle_one (x y : Float) :
    Regular (x.isFinite) (Datum.settle [double x] (double y)) :=
  regular_settle (allFinite_double x rfl) (fun hx => by rw [hx]; rfl) y

theorem regular_settle_two (x y z : Float) :
    Regular (x.isFinite ∧ y.isFinite) (Datum.settle [double x, double y] (double z)) :=
  regular_settle (allFinite_double x (allFinite_double y rfl))
    (fun ⟨hx, hy⟩ => by rw [hx, hy]; rfl) z

/-! ## Powers -/

theorem contained_ok {α : Type} (a : α) : Contained (.ok a : Except Mishap α) := trivial

theorem contained_failure {α : Type} (cause : Failure) :
    Contained (.error (.failure cause) : Except Mishap α) :=
  fun _ h => by cases h

theorem contained_ite {α : Type} {p : Prop} [Decidable p] {a b : Except Mishap α}
    (ha : Contained a) (hb : Contained b) : Contained (if p then a else b) := by
  split
  · exact ha
  · exact hb

theorem contained_finitePower (negative : Bool) (x y : Float) :
    Contained (Number.finitePower negative x y) :=
  contained_ite (contained_failure _) (contained_ok _)

/-- A power of doubles fails only in ways that are reported. -/
theorem contained_floatPower (x y : Float) : Contained (Number.floatPower x y) := by
  have hcomplex : Contained (.error .complexResult : Except Mishap Float) := fun _ h => by cases h
  rw [Number.floatPower]
  apply contained_ite (contained_ok _)
  apply contained_ite (contained_ok _)
  apply contained_ite (contained_ok _)
  apply contained_ite
  · -- an infinite exponent
    exact contained_ite (contained_ok _) (contained_ite (contained_ok _) (contained_ok _))
  apply contained_ite
  · -- an infinite base
    exact contained_ite (contained_ok _) (contained_ok _)
  apply contained_ite
  · -- a zero base
    exact contained_ite (contained_failure _) (contained_ok _)
  apply contained_ite
  · -- a negative base
    apply contained_ite
    · exact contained_ite (contained_failure _) hcomplex
    · exact contained_ite (contained_ok _) (contained_finitePower _ _ _)
  · exact contained_ite (contained_ok _) (contained_finitePower _ _ _)

/-! ## Steps -/

/-- An operation on doubles has a double as its result, or a failure that is reported. -/
theorem operate_double (op : Operation) (x y : Float) :
    (∃ z, Datum.operate op (double x) (double y) = .ok (double z)) ∨
      ∃ m, Datum.operate op (double x) (double y) = .error m ∧ ∀ cause, m ≠ .escaped cause := by
  cases op with
  | add => exact Or.inl ⟨x + y, rfl⟩
  | subtract => exact Or.inl ⟨x - y, rfl⟩
  | multiply => exact Or.inl ⟨x * y, rfl⟩
  | divide =>
      have hdivide : Datum.operate .divide (double x) (double y) =
          if y == 0 then .error (.failure .floatDivision) else .ok (double (x / y)) := by
        show ((Datum.number <$> (if y == 0 then throw .floatDivision
          else pure (Number.float (x / y)) : Except Failure Number)).mapError Mishap.ofFailure) = _
        split <;> rfl
      rw [hdivide]
      split
      · exact Or.inr ⟨_, rfl, fun cause h => by cases h⟩
      · exact Or.inl ⟨_, rfl⟩
  | power =>
      have hpower : Datum.operate .power (double x) (double y) =
          (fun z => double z) <$> Number.floatPower x y := by
        show Datum.number <$> (Number.float <$> Number.floatPower x y) = _
        cases Number.floatPower x y <;> rfl
      have hcontained := contained_floatPower x y
      rw [hpower]
      cases hz : Number.floatPower x y with
      | ok z => exact Or.inl ⟨z, rfl⟩
      | error m =>
          rw [hz] at hcontained
          exact Or.inr ⟨m, rfl, hcontained⟩

/-- **A binary step on doubles** has a double as its result, finite for finite operands, or it fails
in a way that is reported. -/
theorem regular_step (op : Operation) (x y : Float) :
    Regular (x.isFinite ∧ y.isFinite) (Datum.step op (double x) (double y)) := by
  rw [Datum.step]
  rcases operate_double op x y with ⟨z, hz⟩ | ⟨m, hm, hcontained⟩
  · rw [hz]
    exact regular_settle_two x y z
  · rw [hm]
    exact hcontained

theorem isContained_of_checked (infinite : Failure) {cause : Failure} {f : Float → Float}
    {x : Float} (hinfinite : infinite.isContained)
    (h : Number.checked infinite f x = .error cause) : cause.isContained := by
  unfold Number.checked at h
  dsimp only at h
  split at h
  · obtain rfl := Except.error.inj h
    rfl
  · split at h
    · obtain rfl := Except.error.inj h
      exact hinfinite
    · cases h

theorem isContained_of_checkedLog {cause : Failure} {f : Float → Float} {x : Float}
    (h : Number.checkedLog f x = .error cause) : cause.isContained := by
  rw [Number.checkedLog] at h
  split at h
  · cases h
  · obtain rfl := Except.error.inj h
    rfl

/-- An elementary function fails at a double only in ways that are reported. -/
theorem isContained_of_value (e : Number.Elementary) {x : Float} {cause : Failure}
    (h : e.value (.float x) = .error cause) : cause.isContained := by
  cases e with
  | log | log10 => exact isContained_of_checkedLog h
  | exp => exact isContained_of_checked .functionRange rfl h
  | sin | cos | tan | arcsin | arccos | arctan =>
      exact isContained_of_checked .functionDomain rfl h

/-- **A step of an elementary function at a double** has a double as its result, finite for a finite
argument, or it fails in a way that is reported. -/
theorem regular_apply (e : Number.Elementary) (x : Float) :
    Regular (x.isFinite) (Function.step (.ofElementary e) (double x)) := by
  have hvalue : Function.ofElementary e (double x) =
      (fun y => .value (double y)) <$> e.value (.float x) := rfl
  rw [Function.step, hvalue]
  cases hy : e.value (.float x) with
  | ok y => exact regular_settle_one x y
  | error cause =>
      show Regular _ (.error (.ofFailure cause))
      rw [Mishap.ofFailure, if_pos (isContained_of_value e hy)]
      exact fun cause' h => by cases h

/-! ## The standard vocabulary -/

theorem mem_of_lookup {α : Type} {names : Names α} {name : String} {a : α}
    (h : names.lookup name = some a) : ∃ key, (key, a) ∈ names := by
  obtain ⟨front, rest, hnames, -⟩ := List.lookup_eq_some_iff.1 h
  rw [hnames]
  exact ⟨name, List.mem_append_right _ List.mem_cons_self⟩

/-- The constants of the standard vocabulary are finite doubles. -/
theorem standard_constant {name : String} {v : Datum}
    (h : Vocabulary.standard.domain.constant? name = some v) :
    ∃ x, v = double x ∧ x.isFinite := by
  have hpi : (3.14159265 : Float).isFinite := by decide +kernel
  have he : (2.71828183 : Float).isFinite := by decide +kernel
  have hlookup : Vocabulary.standardConstants.lookup name = some v := by
    have hvalue : Vocabulary.standard.value? name = some v := h
    rw [Vocabulary.value?] at hvalue
    split at hvalue
    · cases hvalue
    · cases hvalue
    · rename_i hd
      exact hd.trans hvalue
  obtain ⟨key, hmem⟩ := mem_of_lookup hlookup
  rcases List.mem_cons.1 hmem with hmem | hmem
  · exact ⟨_, (Prod.mk.inj hmem).2, hpi⟩
  · exact ⟨_, (Prod.mk.inj (List.mem_singleton.1 hmem)).2, he⟩

/-- The functions of the standard vocabulary are the elementary ones. -/
theorem standard_function {name : String} {f : Datum → Except Mishap Datum}
    (h : Vocabulary.standard.domain.function? name = some f) :
    ∃ e, f = Function.step (.ofElementary e) := by
  obtain ⟨g, hg, rfl⟩ := Option.map_eq_some_iff.1 h
  obtain ⟨key, hmem⟩ := mem_of_lookup hg
  obtain ⟨e, -, he⟩ := List.mem_map.1 hmem
  exact ⟨e, by rw [← (Prod.mk.inj he).2]⟩

/-- The negative of a double is a double, finite if it was. -/
theorem standard_negate (x : Float) :
    Vocabulary.standard.domain.negate (double x) = .ok (double (-x)) := rfl

end Calculator
