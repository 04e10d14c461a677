import Calculator.Json.Reader
import Calculator.Json.Writer
import Calculator.Proofs.Number.Finite
import Calculator.Proofs.Source.Layout

/-!
# JSON numbers

A number is read in the same way whatever stands behind it, as long as that does not go on with a
number (`takeNumber_append`). So an integer that has been written is read back in any place
(`takeNumber_int`), and a double is if it is in a text of its own (`takeNumber_float`). Both are
written with digits, points, exponent marks and signs alone.
-/

set_option autoImplicit false

namespace Calculator.Json

/-! ## Where a number ends -/

/-- The characters of numbers. -/
def isNumeric (c : Char) : Bool :=
  c.isDigit || (c = '.' || c = 'e' || c = 'E' || c = '+' || c = '-')

/-- The text goes on with nothing that belongs to a number. -/
def EndsNumber (s : List Char) : Prop := ∀ c ∈ s.head?, isNumeric c = false

variable {s t x : List Char}

theorem endsNumber_nil : EndsNumber [] := fun _ hc => nomatch hc

theorem endsNumber_cons {c : Char} (h : isNumeric c = false) (s : List Char) :
    EndsNumber (c :: s) := by
  intro c' hc'
  obtain rfl := Option.some.inj hc'
  exact h

namespace EndsNumber

variable (hx : EndsNumber x)

include hx

theorem noDigitFirst : NoDigitFirst x := fun c hc => (Bool.or_eq_false_iff.1 (hx c hc)).1

/-- No character of a number stands first. -/
theorem head_ne {m : Char} (hm : isNumeric m = true) {c : Char} (hc : c ∈ x.head?) : c ≠ m := by
  rintro rfl
  rw [hx c hc] at hm
  cases hm

theorem takeWhole?_append {w : List Char} (h : takeWhole? s = some (w, t)) :
    takeWhole? (s ++ x) = some (w, t ++ x) := by
  unfold takeWhole? at h ⊢
  split at h
  · obtain ⟨rfl, rfl⟩ := Prod.mk.inj (Option.some.inj h)
    rfl
  · rename_i c s' hzero
    split at h
    · rename_i hc
      obtain ⟨rfl, rfl⟩ := Prod.mk.inj (Option.some.inj h)
      obtain ⟨htake, hdrop⟩ := digits_append_of_head (s := s') hx.noDigitFirst
      simp [hc, htake, hdrop]
    · cases h
  · cases h

theorem takeFraction_append :
    takeFraction (s ++ x) = ((takeFraction s).1, (takeFraction s).2 ++ x) := by
  -- the point and a digit are looked at before they are taken
  cases s with
  | nil =>
      cases x with
      | nil => rfl
      | cons c x => simp [takeFraction, hx.head_ne (m := '.') rfl (c := c) rfl]
  | cons c s =>
      by_cases hc : c = '.'
      · subst hc
        cases s with
        | nil =>
            cases x with
            | nil => rfl
            | cons c x => simp [takeFraction, hx.noDigitFirst c rfl]
        | cons d s =>
            obtain ⟨htake, hdrop⟩ := digits_append_of_head (s := s) hx.noDigitFirst
            simp only [List.cons_append, takeFraction, htake, hdrop]
            split
            · rfl
            · rfl
      · simp [takeFraction, hc]

theorem takeSign_append : takeSign (s ++ x) = ((takeSign s).1, (takeSign s).2 ++ x) := by
  cases s with
  | nil =>
      cases x with
      | nil => rfl
      | cons c x =>
          simp [takeSign, hx.head_ne (m := '-') rfl (c := c) rfl,
            hx.head_ne (m := '+') rfl (c := c) rfl]
  | cons c s =>
      by_cases hminus : c = '-'
      · subst hminus
        rfl
      · by_cases hplus : c = '+'
        · subst hplus
          rfl
        · simp [takeSign, hminus, hplus]

theorem takeExponent_append :
    takeExponent (s ++ x) = ((takeExponent s).1, (takeExponent s).2 ++ x) := by
  cases s with
  | nil =>
      cases x with
      | nil => rfl
      | cons c x =>
          simp [takeExponent, hx.head_ne (m := 'e') rfl (c := c) rfl,
            hx.head_ne (m := 'E') rfl (c := c) rfl]
  | cons mark s =>
      obtain ⟨htake, hdrop⟩ := digits_append_of_head (s := (takeSign s).2) hx.noDigitFirst
      simp only [List.cons_append, takeExponent, hx.takeSign_append, htake, hdrop]
      split
      · split
        · rfl
        · rfl
      · rfl

end EndsNumber

/-! ## Numbers in their parts -/

/-- The number whose integer part has been read, and the rest. -/
def takePlaces (negative : Bool) (whole s : List Char) : Except Fault (Number × List Char) :=
  if (takeFraction s).1 = [] ∧ (takeExponent (takeFraction s).2).1 = none then
    (fun n => (.int (signed negative n), (takeExponent (takeFraction s).2).2)) <$>
      (readDigits whole).mapError .failure
  else
    .ok (.float (Number.withSign negative (DecimalText.toFloat
      ⟨whole, (takeFraction s).1, (takeExponent (takeFraction s).2).1.getD 0⟩)),
      (takeExponent (takeFraction s).2).2)

/-- A minus, if one is there, and the rest. -/
def takeMinus : List Char → Bool × List Char
  | '-' :: s => (true, s)
  | s => (false, s)

/-- A number is its sign, its integer part and its places. -/
theorem takeNumber_eq (s : List Char) :
    takeNumber s = required (takeWhole? (takeMinus s).2) >>= fun p =>
      takePlaces (takeMinus s).1 p.1 p.2 := by
  show required (takeWhole? (takeMinus s).2) >>= _ = _
  cases takeWhole? (takeMinus s).2 with
  | none => rfl
  | some p =>
      simp only [required, takePlaces]
      show (if _ then _ else _) = (if _ then _ else _)
      split
      · cases (readDigits p.1).mapError Fault.failure with
        | error fault => rfl
        | ok n => rfl
      · rfl

/-- The sign and the integer part of a number that has been read. -/
theorem takeNumber_eq_ok {n : Number} (h : takeNumber s = .ok (n, t)) :
    ∃ whole rest, takeWhole? (takeMinus s).2 = some (whole, rest) ∧
      takePlaces (takeMinus s).1 whole rest = .ok (n, t) := by
  rw [takeNumber_eq] at h
  cases hwhole : takeWhole? (takeMinus s).2 with
  | none =>
      rw [hwhole] at h
      cases h
  | some p =>
      rw [hwhole] at h
      exact ⟨p.1, p.2, rfl, h⟩

theorem takeMinus_append {p : List Char × List Char} (h : takeWhole? (takeMinus s).2 = some p) :
    takeMinus (s ++ x) = ((takeMinus s).1, (takeMinus s).2 ++ x) := by
  cases s with
  | nil => cases h
  | cons c s =>
      by_cases hc : c = '-'
      · subst hc
        rfl
      · simp [takeMinus, hc]

/-- **A number is read in the same way whatever follows it**, if that is no part of a number. -/
theorem takeNumber_append {n : Number} (hx : EndsNumber x) (h : takeNumber s = .ok (n, t)) :
    takeNumber (s ++ x) = .ok (n, t ++ x) := by
  obtain ⟨whole, rest, hwhole, hplaces⟩ := takeNumber_eq_ok h
  rw [takeNumber_eq, takeMinus_append hwhole, hx.takeWhole?_append hwhole]
  show takePlaces _ whole (rest ++ x) = _
  simp only [takePlaces, hx.takeFraction_append, hx.takeExponent_append] at hplaces ⊢
  split at hplaces
  · rename_i hparts
    rw [if_pos hparts]
    cases hdigits : readDigits whole with
    | error cause =>
        rw [hdigits] at hplaces
        cases hplaces
    | ok m =>
        rw [hdigits] at hplaces
        obtain ⟨rfl, rfl⟩ := Prod.mk.inj (Except.ok.inj hplaces)
        rfl
  · rename_i hparts
    rw [if_neg hparts]
    obtain ⟨rfl, rfl⟩ := Prod.mk.inj (Except.ok.inj hplaces)
    rfl

/-! ### What is left -/

theorem takeWhole?_suffix {p : List Char × List Char} (h : takeWhole? s = some p) : p.2 <:+ s := by
  unfold takeWhole? at h
  split at h
  · obtain rfl := Option.some.inj h
    exact List.suffix_cons _ _
  · split at h
    · obtain rfl := Option.some.inj h
      exact (List.dropWhile_suffix _).trans (List.suffix_cons _ _)
    · cases h
  · cases h

theorem takeFraction_suffix (s : List Char) : (takeFraction s).2 <:+ s := by
  unfold takeFraction
  split
  · split
    · exact ((List.dropWhile_suffix _).trans (List.suffix_cons _ _)).trans (List.suffix_cons _ _)
    · exact List.suffix_refl _
  · exact List.suffix_refl _

theorem takeSign_suffix (s : List Char) : (takeSign s).2 <:+ s := by
  unfold takeSign
  split
  · exact List.suffix_cons _ _
  · exact List.suffix_cons _ _
  · exact List.suffix_refl _

theorem takeExponent_suffix (s : List Char) : (takeExponent s).2 <:+ s := by
  unfold takeExponent
  split
  · split
    · dsimp only
      split
      · exact List.suffix_refl _
      · exact ((List.dropWhile_suffix _).trans (takeSign_suffix _)).trans (List.suffix_cons _ _)
    · exact List.suffix_refl _
  · exact List.suffix_refl _

theorem takeMinus_suffix (s : List Char) : (takeMinus s).2 <:+ s := by
  unfold takeMinus
  split
  · exact List.suffix_cons _ _
  · exact List.suffix_refl _

/-- What a number leaves is what is behind its exponent. -/
theorem takePlaces_eq_ok {negative : Bool} {whole rest : List Char} {n : Number}
    (h : takePlaces negative whole rest = .ok (n, t)) :
    t = (takeExponent (takeFraction rest).2).2 := by
  simp only [takePlaces] at h
  split at h
  · cases hdigits : readDigits whole with
    | error cause =>
        rw [hdigits] at h
        cases h
    | ok m =>
        rw [hdigits] at h
        exact (Prod.mk.inj (Except.ok.inj h)).2.symm
  · exact (Prod.mk.inj (Except.ok.inj h)).2.symm

/-- What a number leaves is an end of the text. -/
theorem takeNumber_suffix {n : Number} (h : takeNumber s = .ok (n, t)) : t <:+ s := by
  obtain ⟨whole, rest, hwhole, hplaces⟩ := takeNumber_eq_ok h
  rw [takePlaces_eq_ok hplaces]
  exact (((takeExponent_suffix _).trans (takeFraction_suffix _)).trans
    (takeWhole?_suffix hwhole)).trans (takeMinus_suffix s)

/-- A number starts with a digit, or with a minus and a digit. -/
theorem takeNumber_starts {n : Number} (h : takeNumber s = .ok (n, t)) :
    ∃ c s', c.isDigit = true ∧ (s = c :: s' ∨ s = '-' :: c :: s') := by
  obtain ⟨whole, rest, hwhole, -⟩ := takeNumber_eq_ok h
  obtain ⟨c, s', hbody, hc⟩ : ∃ c s', (takeMinus s).2 = c :: s' ∧ c.isDigit = true := by
    unfold takeWhole? at hwhole
    split at hwhole
    · exact ⟨_, _, by assumption, rfl⟩
    · split at hwhole
      · exact ⟨_, _, by assumption, by assumption⟩
      · cases hwhole
    · cases hwhole
  refine ⟨c, s', hc, ?_⟩
  unfold takeMinus at hbody
  split at hbody
  · exact Or.inr (congrArg _ hbody)
  · exact Or.inl hbody

/-! ## Numbers as data -/

/-- No word starts like a number. -/
theorem no_word_of_starts {c : Char} (hc : c.isDigit = true)
    (hs : s = c :: t ∨ s = '-' :: c :: t) :
    (words.findSome? fun w => (afterWord? w.1 s).map (w.2, ·)) = none := by
  have hne (m : Char) (hm : m.isDigit = false) : m ≠ c := by
    rintro rfl
    rw [hc] at hm
    cases hm
  have hn := hne 'n' rfl
  have ht := hne 't' rfl
  have hf := hne 'f' rfl
  have hcap := hne 'N' rfl
  have hinf := hne 'I' rfl
  have hminus := hne '-' rfl
  rcases hs with rfl | rfl
  · simp [words, afterWord?, hn, ht, hf, hcap, hinf, hminus]
  · simp [words, afterWord?, hinf]

/-- A number that has been read is a datum, whatever follows it. -/
theorem takeScalar_append {n : Number} (hx : EndsNumber x) (h : takeNumber s = .ok (n, t)) :
    takeScalar (s ++ x) = .ok (.number n, t ++ x) := by
  obtain ⟨c, s', hc, hs⟩ := takeNumber_starts h
  have hs' : s ++ x = c :: (s' ++ x) ∨ s ++ x = '-' :: c :: (s' ++ x) := by
    rcases hs with rfl | rfl
    · exact Or.inl rfl
    · exact Or.inr rfl
  rw [takeScalar, no_word_of_starts hc hs', takeNumber_append hx h]
  rfl

/-! ## Integers -/

theorem natOfDigits_toDigits (n : Nat) : natOfDigits (Nat.toDigits 10 n) = n := by
  have h := Nat.ofDigitChars_toDigits (b := 10) (n := n) (by decide) (by decide)
  simp only [Nat.ofDigitChars, Nat.mul_comm 10] at h
  exact h

/-- A positive number does not start with a zero. -/
theorem toDigits_eq_cons {n : Nat} (hn : 0 < n) :
    ∃ c ds, Nat.toDigits 10 n = c :: ds ∧ c ≠ '0' := by
  induction n using Nat.strongRecOn with
  | ind n ih =>
      by_cases hsmall : n < 10
      · rw [Nat.toDigits_of_lt_base hsmall]
        refine ⟨_, _, rfl, ?_⟩
        have hdigit : ∀ d < 10, 0 < d → Nat.digitChar d ≠ '0' := by decide
        exact hdigit n hsmall hn
      · obtain ⟨c, ds, hds, hc⟩ := ih (n / 10) (by omega) (by omega)
        rw [Nat.toDigits_of_base_le (by decide) (by omega), hds]
        exact ⟨c, _, rfl, hc⟩

theorem isDigit_of_mem_toDigits {n : Nat} : ∀ c ∈ Nat.toDigits 10 n, c.isDigit = true :=
  fun _ hc => Nat.isDigit_of_mem_toDigits (by decide) (by decide) hc

/-- Digits that do not start with a zero are read as a whole. -/
theorem takeWhole?_cons {c : Char} {ds x : List Char} (hc : c.isDigit = true) (hzero : c ≠ '0')
    (hds : Digits ds) (hx : NoDigitFirst x) :
    takeWhole? (c :: (ds ++ x)) = some (c :: ds, x) := by
  obtain ⟨htake, hdrop⟩ := hds.takeWhile_append hx
  unfold takeWhole?
  split
  · rename_i heq
    exact absurd (List.cons.inj heq).1 hzero
  · rename_i heq
    obtain ⟨rfl, rfl⟩ := List.cons.inj heq
    rw [if_pos hc, htake, hdrop]
  · rename_i heq
    cases heq

theorem takeWhole?_toDigits (n : Nat) :
    takeWhole? (Nat.toDigits 10 n) = some (Nat.toDigits 10 n, []) := by
  rcases Nat.eq_zero_or_pos n with rfl | hn
  · rfl
  · have hdigits := isDigit_of_mem_toDigits (n := n)
    obtain ⟨c, ds, hds, hc⟩ := toDigits_eq_cons hn
    rw [hds] at hdigits ⊢
    obtain ⟨hfirst, hrest⟩ := List.forall_mem_cons.1 hdigits
    have hwhole := takeWhole?_cons (x := []) hfirst hc hrest fun _ hc => nomatch hc
    rw [List.append_nil] at hwhole
    exact hwhole

theorem takePlaces_toDigits {n : Nat} (negative : Bool) (hn : n < Number.leastUnwritable) :
    takePlaces negative (Nat.toDigits 10 n) [] = .ok (.int (signed negative n), []) := by
  have hshort (k : Nat) (hk : 0 < k) (h : n < Nat.pow 10 k) : (Nat.toDigits 10 n).length ≤ k :=
    (Nat.length_toDigits_le_iff (by decide) hk).2 h
  unfold Number.leastUnwritable at hn
  have hlength := hshort mostDigits (by decide) hn
  have hread : readDigits (Nat.toDigits 10 n) = .ok n := by
    rw [readDigits, if_neg (Nat.not_lt.2 hlength), natOfDigits_toDigits]
  rw [takePlaces, hread]
  rfl

theorem toList_toString_ofNat (n : Nat) :
    (toString (Int.ofNat n)).toList = Nat.toDigits 10 n := by
  show (Nat.repr n).toList = _
  simp [Nat.repr]

theorem toList_toString_negSucc (n : Nat) :
    (toString (Int.negSucc n)).toList = '-' :: Nat.toDigits 10 (n + 1) := by
  show ("-" ++ Nat.repr (n + 1)).toList = _
  simp [Nat.repr]

theorem takeMinus_toDigits (n : Nat) :
    takeMinus (Nat.toDigits 10 n) = (false, Nat.toDigits 10 n) := by
  have hdigits := isDigit_of_mem_toDigits (n := n)
  cases hds : Nat.toDigits 10 n with
  | nil => rfl
  | cons c ds =>
      have hc : c ≠ '-' := by
        rintro rfl
        exact absurd (hdigits '-' (hds ▸ List.mem_cons_self)) (by decide)
      simp [takeMinus, hc]

/-- **An integer is read back**, if it is short enough to be written. -/
theorem takeNumber_int {n : Int} (hn : n.natAbs < Number.leastUnwritable) :
    takeNumber (toString n).toList = .ok (.int n, []) := by
  rw [takeNumber_eq]
  cases n with
  | ofNat n =>
      rw [toList_toString_ofNat, takeMinus_toDigits, takeWhole?_toDigits]
      exact takePlaces_toDigits false hn
  | negSucc n =>
      rw [toList_toString_negSucc]
      show required (takeWhole? (Nat.toDigits 10 (n + 1))) >>= _ = _
      rw [takeWhole?_toDigits]
      exact takePlaces_toDigits true hn

theorem isNumeric_of_isDigit {c : Char} (h : c.isDigit = true) : isNumeric c = true := by
  rw [isNumeric, h]
  rfl

theorem isNumeric_cons {c : Char} (hc : isNumeric c = true) (hs : ∀ c ∈ s, isNumeric c = true) :
    ∀ c' ∈ c :: s, isNumeric c' = true :=
  List.forall_mem_cons.2 ⟨hc, hs⟩

theorem isNumeric_toDigits (n : Nat) : ∀ c ∈ Nat.toDigits 10 n, isNumeric c = true :=
  fun c hc => isNumeric_of_isDigit (isDigit_of_mem_toDigits c hc)

theorem isNumeric_toString (n : Int) : ∀ c ∈ (toString n).toList, isNumeric c = true := by
  cases n with
  | ofNat n =>
      rw [toList_toString_ofNat]
      exact isNumeric_toDigits n
  | negSucc n =>
      rw [toList_toString_negSucc]
      exact isNumeric_cons rfl (isNumeric_toDigits (n + 1))

/-! ## Doubles -/

open Decimal

theorem isNumeric_replicate_zero (n : Nat) : ∀ c ∈ List.replicate n '0', isNumeric c = true := by
  intro c hc
  obtain rfl := List.eq_of_mem_replicate hc
  rfl

theorem isNumeric_append (hs : ∀ c ∈ s, isNumeric c = true) (ht : ∀ c ∈ t, isNumeric c = true) :
    ∀ c ∈ s ++ t, isNumeric c = true :=
  List.forall_mem_append.2 ⟨hs, ht⟩

theorem isNumeric_splitAtPoint {ds : List Char} (hds : ∀ c ∈ ds, isNumeric c = true)
    (point : Int) :
    (∀ c ∈ (splitAtPoint ds point).1, isNumeric c = true) ∧
      ∀ c ∈ (splitAtPoint ds point).2, isNumeric c = true := by
  unfold splitAtPoint
  split
  · exact ⟨isNumeric_cons rfl (List.forall_mem_nil _),
      isNumeric_append (isNumeric_replicate_zero _) hds⟩
  · exact ⟨isNumeric_append (fun c hc => hds c (List.mem_of_mem_take hc))
      (isNumeric_replicate_zero _), fun c hc => hds c (List.mem_of_mem_drop hc)⟩

theorem isNumeric_exponentChars (e : Int) : ∀ c ∈ exponentChars e, isNumeric c = true := by
  refine isNumeric_cons ?_ (isNumeric_append (isNumeric_replicate_zero _) (isNumeric_toDigits _))
  split
  · rfl
  · rfl

theorem isNumeric_shortestChars (m : Scaled) : ∀ c ∈ shortestChars m, isNumeric c = true := by
  have hds := isNumeric_toDigits m.digits
  unfold shortestChars
  dsimp only
  split
  · obtain ⟨hwhole, hfraction⟩ := isNumeric_splitAtPoint hds m.point
    refine isNumeric_append hwhole (isNumeric_cons rfl ?_)
    split
    · exact isNumeric_cons rfl (List.forall_mem_nil _)
    · exact hfraction
  · refine isNumeric_append (isNumeric_append (fun c hc => hds c (List.mem_of_mem_take hc)) ?_)
      (isNumeric_cons rfl (isNumeric_exponentChars _))
    split
    · exact List.forall_mem_nil _
    · exact isNumeric_cons rfl fun c hc => hds c (List.mem_of_mem_drop hc)

/-- The text of a double that reads back as the same double. -/
def ReadsBack (x : Float) : Prop := read (floatChars x) = .ok (.number (.float x))

theorem floatChars_of_isFinite {x : Float} (h : x.isFinite) :
    floatChars x = (floatText x).toList := by
  rw [floatChars, isNaN_of_isFinite h, isInf_of_isFinite h]
  rfl

theorem floatText_cases (x : Float) :
    (floatText x).toList ∈ ["nan".toList, "inf".toList, "-inf".toList] ∨
      ∀ c ∈ (floatText x).toList, isNumeric c = true := by
  unfold floatText
  cases decode x with
  | notANumber => exact Or.inl (by decide)
  | infinite negative => cases negative <;> exact Or.inl (by decide)
  | finite negative m e =>
      refine Or.inr ?_
      have hsigned (s : List Char) (hs : ∀ c ∈ s, isNumeric c = true) :
          ∀ c ∈ (String.ofList (if negative then '-' :: s else s)).toList, isNumeric c = true := by
        rw [String.toList_ofList]
        split
        · exact isNumeric_cons rfl hs
        · exact hs
      cases m with
      | zero => exact hsigned "0.0".toList (List.all_eq_true.1 (by decide))
      | succ m => exact hsigned _ (isNumeric_shortestChars _)

/-- A finite double that reads back is written as a number. -/
theorem isNumeric_floatChars {x : Float} (h : x.isFinite) (hx : ReadsBack x) :
    ∀ c ∈ floatChars x, isNumeric c = true := by
  rw [ReadsBack, floatChars_of_isFinite h] at hx
  rw [floatChars_of_isFinite h]
  refine (floatText_cases x).resolve_left fun hword => ?_
  -- the other texts are no JSON
  simp only [List.mem_cons, List.not_mem_nil, or_false] at hword
  rcases hword with hword | hword | hword
  · rw [hword] at hx
    cases hx
  · rw [hword] at hx
    cases hx
  · rw [hword] at hx
    cases hx

theorem no_word_of_isNumeric (hs : ∀ c ∈ s, isNumeric c = true) :
    (words.findSome? fun w => (afterWord? w.1 s).map (w.2, ·)) = none := by
  -- every word has a letter that no number has
  have hletter : (words.all fun w => w.1.toList.any (!isNumeric ·)) = true := by decide
  refine List.findSome?_eq_none_iff.2 fun w hw => ?_
  obtain ⟨c, hc, hnumeric⟩ := List.any_eq_true.1 (List.all_eq_true.1 hletter w hw)
  rw [Bool.not_eq_true'] at hnumeric
  have hprefix : w.1.toList.isPrefixOf s = false := by
    refine Bool.eq_false_iff.2 fun h => ?_
    rw [hs c ((List.isPrefixOf_iff_prefix.1 h).subset hc)] at hnumeric
    cases hnumeric
  rw [afterWord?, hprefix]
  rfl

/-- A character of a class without blanks is no blank. -/
theorem isBlank_eq_false {p : Char → Bool} (hp : [' ', '\t', '\n', '\r'].any p = false) {c : Char}
    (h : p c = true) : isBlank c = false := by
  refine Bool.eq_false_iff.2 fun hblank => ?_
  have hmem : c ∈ [' ', '\t', '\n', '\r'] := by
    simpa [isBlank, or_assoc] using hblank
  exact List.any_eq_false.1 hp c hmem h

theorem isBlank_of_isNumeric {c : Char} (h : isNumeric c = true) : isBlank c = false :=
  isBlank_eq_false rfl h

theorem skipBlanks_of_isNumeric (hs : ∀ c ∈ s, isNumeric c = true) : skipBlanks s = s := by
  cases s with
  | nil => rfl
  | cons c s =>
      have hc := isBlank_of_isNumeric (hs c List.mem_cons_self)
      exact List.dropWhile_cons_of_neg (Bool.eq_false_iff.1 hc)

/-- Data that starts like a number is a scalar. -/
theorem takeValue_of_isNumeric (levels fuel : Nat) {c : Char} (hc : isNumeric c = true)
    (s : List Char) : takeValue levels (fuel + 1) (c :: s) = takeScalar (c :: s) := by
  have hne (m : Char) (hm : isNumeric m = false) : c ≠ m := by
    rintro rfl
    rw [hc] at hm
    cases hm
  have hquote := hne '"' rfl
  have hbracket := hne '[' rfl
  have hbrace := hne '\x7b' rfl
  simp [takeValue, hquote, hbracket, hbrace]

/-- **A finite double that reads back is read back as a number**, with nothing left. -/
theorem takeNumber_float {x : Float} (h : x.isFinite) (hx : ReadsBack x) :
    takeNumber (floatChars x) = .ok (.float x, []) := by
  have hnumeric := isNumeric_floatChars h hx
  rw [ReadsBack, read, skipBlanks_of_isNumeric hnumeric] at hx
  generalize floatChars x = s at hx hnumeric
  cases s with
  | nil => cases hx
  | cons c s =>
      rw [takeValue_of_isNumeric _ _ (hnumeric c List.mem_cons_self), takeScalar,
        no_word_of_isNumeric hnumeric] at hx
      cases hnumber : takeNumber (c :: s) with
      | error fault =>
          rw [hnumber] at hx
          cases hx
      | ok r =>
          obtain ⟨n, t⟩ := r
          rw [hnumber] at hx
          have ht : ∀ c' ∈ t, isNumeric c' = true := fun c' hc' =>
            hnumeric c' ((takeNumber_suffix hnumber).subset hc')
          change (if skipBlanks t = [] then _ else _) = _ at hx
          rw [skipBlanks_of_isNumeric ht] at hx
          split at hx
          · rename_i hnil
            injection hx with hx
            injection hx with hx
            obtain rfl : n = .float x := hx
            rw [hnil]
          · cases hx

end Calculator.Json
