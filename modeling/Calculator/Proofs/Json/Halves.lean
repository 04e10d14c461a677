import Calculator.Proofs.Data.Proper
import Calculator.Proofs.Json.Strings

/-!
# JSON strings with halves

A half of a pair of code units is written as an escape of its own. If the half of a pair that comes
first stands right before one that comes second, the two escapes are read as the character of the
pair; all other halves are read as they were written. So a text of points is read as its `paired`
form (`takeString_flatMap_pointEscape`), which is written like the text itself
(`pointsChars_paired`).
-/

set_option autoImplicit false

namespace Calculator.Json

open Text (HasHalves Point)

/-! ## Pairs -/

/-- Whether two points are the two halves of a pair, in order. -/
def isPair : Point → Point → Bool
  | .half high, .half low => isHighUnit high && isLowUnit low
  | _, _ => false

/-- The points of a text with both halves of each pair as the character of the pair. -/
def paired : List Point → List Point
  | p :: q :: ps =>
    if isPair p q then pairPoint p.code q.code :: paired ps else p :: paired (q :: ps)
  | ps => ps

theorem isPair_eq_true_iff {p q : Point} : isPair p q = true ↔
    ∃ high low, p = .half high ∧ q = .half low ∧ isHighUnit high = true ∧ isLowUnit low = true := by
  cases p <;> cases q <;> simp [isPair]

/-- The characters that no half is needed for stay apart. -/
theorem isPair_char_right (p : Point) (c : Char) : isPair p (.char c) = false := by
  cases p <;> rfl

/-- The paired form of a text starts with the same point as the text, or with a character. -/
theorem exists_paired_cons (p : Point) (ps : List Point) :
    ∃ r rest, paired (p :: ps) = r :: rest ∧ (r = p ∨ ∃ c, r = .char c) := by
  cases ps with
  | nil => exact ⟨p, [], rfl, .inl rfl⟩
  | cons q ps =>
      rw [paired]
      split
      · exact ⟨_, _, rfl, .inr ⟨_, rfl⟩⟩
      · exact ⟨_, _, rfl, .inl rfl⟩

/-- A point that makes no pair with the next one stays as it is. -/
theorem paired_cons_of_not {p q : Point} {ps : List Point} (h : isPair p q = false) :
    paired (p :: q :: ps) = p :: paired (q :: ps) := by
  rw [paired, h]
  rfl

/-- A character stays as it is. -/
theorem paired_char_cons (c : Char) (ps : List Point) :
    paired (.char c :: ps) = .char c :: paired ps := by
  cases ps with
  | nil => rfl
  | cons q ps => exact paired_cons_of_not rfl

/-- **Nothing is left to be paired in a paired text.** -/
theorem paired_paired (ps : List Point) : paired (paired ps) = paired ps := by
  induction ps using paired.induct with
  | case1 p q ps hpair ih =>
      rw [paired, if_pos hpair, pairPoint, paired_char_cons, ih]
  | case2 p q ps hpair ih =>
      have hpair : isPair p q = false := Bool.eq_false_iff.2 hpair
      obtain ⟨r, rest, hrest, hr⟩ := exists_paired_cons q ps
      have hnext : isPair p r = false := by
        rcases hr with rfl | ⟨c, rfl⟩
        · exact hpair
        · exact isPair_char_right p c
      rw [paired_cons_of_not hpair, hrest, paired_cons_of_not hnext, ← hrest, ih]
  | case3 ps hps =>
      have hsame : paired ps = ps := by
        rcases ps with _ | ⟨p, _ | ⟨q, ps⟩⟩
        · rfl
        · rfl
        · exact absurd rfl (hps p q ps)
      rw [hsame, hsame]

/-- Pairing makes no halves. -/
theorem hasHalves_paired {ps : List Point} (h : HasHalves ps) : HasHalves (paired ps) := by
  induction ps using paired.induct with
  | case1 p q ps hpair ih =>
      rw [paired, if_pos hpair]
      intro n hn
      rcases List.mem_cons.1 hn with hhead | hn
      · cases hhead
      · exact ih h.of_cons.of_cons n hn
  | case2 p q ps hpair ih =>
      rw [paired, if_neg hpair]
      intro n hn
      rcases List.mem_cons.1 hn with rfl | hn
      · exact h n List.mem_cons_self
      · exact ih h.of_cons n hn
  | case3 ps hps =>
      rcases ps with _ | ⟨p, _ | ⟨q, ps⟩⟩
      · exact h
      · exact h
      · exact absurd rfl (hps p q ps)

/-! ## Writing -/

/-- What stands for a point. -/
def pointEscape : Point → List Char
  | .char c => charEscape c
  | .half n => unitEscape n

theorem pointsChars_eq (ps : List Point) :
    pointsChars ps = '"' :: (ps.flatMap pointEscape ++ ['"']) := by
  have hescape : pointEscape = fun
      | .char c => charEscape c
      | .half n => unitEscape n := by
    funext p
    cases p with
    | char c => rfl
    | half n => rfl
  rw [hescape]
  rfl

theorem pointEscape_ne_nil (p : Point) : pointEscape p ≠ [] := by
  cases p with
  | char c => exact charEscape_ne_nil c
  | half n => exact List.cons_ne_nil _ _

theorem pointsChars_points (s : List Char) :
    pointsChars (Text.points s) = stringChars (String.ofList s) := by
  rw [pointsChars_eq, Text.points, List.flatMap_map, stringChars, String.toList_ofList]
  rfl

/-- The number of the character of a pair. -/
theorem toNat_pairPoint {high low : Nat} (hhigh : isHighUnit high = true)
    (hlow : isLowUnit low = true) : ∃ c : Char, pairPoint high low = .char c ∧
      c.toNat = 0x10000 + (high - 0xD800) * 0x400 + (low - 0xDC00) := by
  simp only [isHighUnit, isLowUnit, Bool.and_eq_true, decide_eq_true_eq] at hhigh hlow
  have hvalid : (0x10000 + (high - 0xD800) * 0x400 + (low - 0xDC00)).isValidChar := .inr (by omega)
  refine ⟨_, rfl, ?_⟩
  rw [Char.ofNat, dif_pos hvalid]
  rfl

/-- A character outside the basic plane is written as a pair. -/
theorem charEscape_of_large {c : Char} {n : Nat} (h : c.toNat = 0x10000 + n) :
    charEscape c = unitEscape (0xD800 + n / 0x400) ++ unitEscape (0xDC00 + n % 0x400) := by
  have hne {d : Char} (hd : d.toNat < 0x10000) : c ≠ d := by
    rintro rfl
    omega
  have hplain : ¬ (' ' ≤ c ∧ c ≤ '~') := fun hplain => by
    have hle : c.toNat ≤ '~'.toNat := hplain.2
    have htilde : '~'.toNat = 126 := rfl
    omega
  have hsum : c.toNat - 0x10000 = n := by omega
  simp only [charEscape, if_neg (hne (d := '"') (by decide)), if_neg (hne (d := '\\') (by decide)),
    if_neg (hne (d := '\n') (by decide)), if_neg (hne (d := '\r') (by decide)),
    if_neg (hne (d := '\t') (by decide)), if_neg (hne (d := '\x08') (by decide)),
    if_neg (hne (d := '\x0c') (by decide)), if_neg hplain,
    if_neg (by omega : ¬ c.toNat < 0x10000), hsum]

/-- A pair is written like its halves. -/
theorem pointEscape_pairPoint {high low : Nat} (hhigh : isHighUnit high = true)
    (hlow : isLowUnit low = true) :
    pointEscape (pairPoint high low) = unitEscape high ++ unitEscape low := by
  obtain ⟨c, hc, hnat⟩ := toNat_pairPoint hhigh hlow
  simp only [isHighUnit, isLowUnit, Bool.and_eq_true, decide_eq_true_eq] at hhigh hlow
  have hescape := charEscape_of_large (Nat.add_assoc _ _ _ ▸ hnat)
  have hfirst : 0xD800 + ((high - 0xD800) * 0x400 + (low - 0xDC00)) / 0x400 = high := by omega
  have hsecond : 0xDC00 + ((high - 0xD800) * 0x400 + (low - 0xDC00)) % 0x400 = low := by omega
  rw [hfirst, hsecond] at hescape
  rw [hc]
  exact hescape

theorem flatMap_paired (ps : List Point) :
    (paired ps).flatMap pointEscape = ps.flatMap pointEscape := by
  induction ps using paired.induct with
  | case1 p q ps hpair ih =>
      obtain ⟨high, low, rfl, rfl, hhigh, hlow⟩ := isPair_eq_true_iff.1 hpair
      rw [paired, if_pos hpair, List.flatMap_cons, ih]
      show pointEscape (pairPoint high low) ++ _ = _
      rw [pointEscape_pairPoint hhigh hlow, List.append_assoc]
      rfl
  | case2 p q ps hpair ih =>
      rw [paired, if_neg hpair, List.flatMap_cons, ih]
      rfl
  | case3 ps hps =>
      rcases ps with _ | ⟨p, _ | ⟨q, ps⟩⟩
      · rfl
      · rfl
      · exact absurd rfl (hps p q ps)

/-- **A text is written like its paired form.** -/
theorem pointsChars_paired (ps : List Point) : pointsChars (paired ps) = pointsChars ps := by
  rw [pointsChars_eq, pointsChars_eq, flatMap_paired]

/-! ## Reading -/

/-- Text that does not go on with the second half of a pair. -/
def NoLowFirst (s : List Char) : Prop :=
  ∀ t low rest, s = '\\' :: 'u' :: t → takeUnit? t = some (low, rest) → isLowUnit low = false

theorem noLowFirst_unitEscape {n : Nat} (hn : n < 0x10000) (hlow : isLowUnit n = false)
    (s : List Char) : NoLowFirst (unitEscape n ++ s) := by
  intro t low rest ht hread
  have ht : Text.hexPadded 4 n ++ s = t := (List.cons.inj (List.cons.inj ht).2).2
  rw [← ht, takeUnit?_hexPadded hn] at hread
  cases hread
  exact hlow

theorem noLowFirst_of_ne {c : Char} (hc : c ≠ '\\') (s : List Char) : NoLowFirst (c :: s) :=
  fun _ _ _ ht _ => absurd (List.cons.inj ht).1 hc

/-- The escape of a character is not the second half of a pair. -/
theorem noLowFirst_charEscape (c : Char) (s : List Char) : NoLowFirst (charEscape c ++ s) := by
  rcases charEscape_cases c with ⟨e, hu, -, -, -, h⟩ | ⟨-, hslash, -, -, h⟩ | ⟨hsmall, h⟩ |
    ⟨n, hlarge, h⟩
  · rw [h]
    intro t low rest ht
    exact absurd (List.cons.inj (List.cons.inj ht).2).1 hu
  · rw [h]
    exact noLowFirst_of_ne hslash s
  · rw [h]
    exact noLowFirst_unitEscape hsmall (isLowUnit_toNat c) s
  · have hvalid := c.valid
    have hval : c.val.toNat = c.toNat := rfl
    simp only [UInt32.isValidChar, Nat.isValidChar, hval] at hvalid
    rw [h, List.append_assoc]
    refine noLowFirst_unitEscape (by omega) ?_ _
    simp only [isLowUnit, Bool.and_eq_false_iff, decide_eq_false_iff_not]
    omega

/-- A half that makes no pair with what follows is read alone. -/
theorem takeUnicode?_half {n : Nat} (hn : Point.isHalf n = true) {s : List Char}
    (hs : isHighUnit n = true → NoLowFirst s) :
    takeUnicode? (Text.hexPadded 4 n ++ s) = some (.half n, s) := by
  have hunit : n < 0x10000 := by
    simp only [Point.isHalf, Bool.and_eq_true, decide_eq_true_eq] at hn
    omega
  have hcode : Point.ofCode n = .half n := if_pos hn
  rw [takeUnicode?, takeUnit?_hexPadded hunit]
  simp only [Option.bind_eq_bind, Option.bind_some, hcode]
  split
  · rename_i t hhigh
    split
    · rename_i low rest hread
      rw [if_neg (Bool.eq_false_iff.1 (hs hhigh t low rest rfl hread))]
    · rfl
  · rfl

/-- The point of an escape is read, then the string goes on. -/
theorem takeString_unitEscape {n : Nat} {p : Point} {s t : List Char}
    (h : takeUnicode? (Text.hexPadded 4 n ++ s) = some (p, t)) (fuel : Nat) :
    takeString (fuel + 1) (unitEscape n ++ s) =
      (fun r => (p :: r.1, r.2)) <$> takeString fuel t := by
  show takeString (fuel + 1) ('\\' :: 'u' :: (Text.hexPadded 4 n ++ s)) = _
  rw [takeString, if_neg (by decide), if_neg (by decide), takePoint_unit, h]
  rfl

/-- A point that makes no pair with what follows is read from its escape, then the string goes
on. -/
theorem takeString_pointEscape {p : Point} {s : List Char} (fuel : Nat)
    (hp : ∀ n, p = .half n → Point.isHalf n = true ∧ (isHighUnit n = true → NoLowFirst s)) :
    takeString (fuel + 1) (pointEscape p ++ s) =
      (fun r => (p :: r.1, r.2)) <$> takeString fuel s := by
  cases p with
  | char c => exact takeString_charEscape c fuel s
  | half n =>
      obtain ⟨hhalf, hnext⟩ := hp n rfl
      exact takeString_unitEscape (takeUnicode?_half hhalf hnext) fuel

/-- The next point is not the second half of a pair with the first. -/
theorem noLowFirst_pointEscape {n : Nat} {q : Point} (hpair : isPair (.half n) q = false)
    (hq : ∀ m, q = .half m → Point.isHalf m = true) (hhigh : isHighUnit n = true)
    (s : List Char) : NoLowFirst (pointEscape q ++ s) := by
  cases q with
  | char c => exact noLowFirst_charEscape c s
  | half m =>
      have hhalf := hq m rfl
      simp only [Point.isHalf, Bool.and_eq_true, decide_eq_true_eq] at hhalf
      rw [isPair, hhigh, Bool.true_and] at hpair
      exact noLowFirst_unitEscape (by omega) hpair s

/-- **A text of points is read as its paired form**, up to the closing quote. -/
theorem takeString_flatMap_pointEscape {ps : List Point} (h : HasHalves ps) (rest : List Char) :
    ∀ fuel, ps.length < fuel →
      takeString fuel (ps.flatMap pointEscape ++ '"' :: rest) = .ok (paired ps, rest) := by
  induction ps using paired.induct with
  | case1 p q ps hpair ih =>
      rintro (_ | fuel) hfuel
      · exact absurd hfuel (Nat.not_lt_zero _)
      · obtain ⟨high, low, rfl, rfl, hhigh, hlow⟩ := isPair_eq_true_iff.1 hpair
        have hread := ih h.of_cons.of_cons fuel (by simp only [List.length_cons] at hfuel; omega)
        rw [List.flatMap_cons, List.flatMap_cons, List.append_assoc, List.append_assoc]
        show takeString (fuel + 1) (unitEscape high ++ (unitEscape low ++ _)) = _
        rw [takeString_unitEscape (takeUnicode?_pair hhigh hlow _), hread, paired, if_pos hpair]
        rfl
  | case2 p q ps hpair ih =>
      rintro (_ | fuel) hfuel
      · exact absurd hfuel (Nat.not_lt_zero _)
      · have hpair : isPair p q = false := Bool.eq_false_iff.2 hpair
        have hread := ih h.of_cons fuel (Nat.lt_of_succ_lt_succ hfuel)
        rw [List.flatMap_cons, List.append_assoc, takeString_pointEscape fuel, hread,
          paired_cons_of_not hpair]
        · rfl
        · rintro n rfl
          refine ⟨h n List.mem_cons_self, fun hhigh => ?_⟩
          rw [List.flatMap_cons, List.append_assoc]
          refine noLowFirst_pointEscape hpair ?_ hhigh _
          rintro m rfl
          exact h.of_cons m List.mem_cons_self
  | case3 ps hps =>
      rintro (_ | fuel) hfuel
      · exact absurd hfuel (Nat.not_lt_zero _)
      · rcases ps with _ | ⟨p, _ | ⟨q, ps⟩⟩
        · rfl
        · obtain ⟨fuel, rfl⟩ := Nat.exists_eq_succ_of_ne_zero
            (Nat.ne_of_gt (Nat.lt_of_succ_lt_succ hfuel))
          rw [List.flatMap_singleton, takeString_pointEscape]
          · rfl
          · rintro n rfl
            exact ⟨h n List.mem_cons_self, fun _ => noLowFirst_of_ne (by decide) rest⟩
        · exact absurd rfl (hps p q ps)

end Calculator.Json
