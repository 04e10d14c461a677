import Calculator.Text.Blank
import Calculator.Text.Lines
import Calculator.Text.Utf8

/-!
# Plain text

Text of printable ASCII (`IsPlain`) is one byte a character, so decoding its bytes gives it back
(`decodeLossy_encode`). None of its characters ends a line, so lines of it that end in line feeds
are found again as they were (`splitLines_flatMap`).
-/

set_option autoImplicit false

namespace Calculator

/-! ## Classes of characters -/

theorem not_isAlpha_of_isDigit {c : Char} (h : c.isDigit) : ¬ c.isAlpha := by
  intro halpha
  have hletter : (decide (c.val ≥ 'A'.val ∧ c.val ≤ 'Z'.val) ||
      decide (c.val ≥ 'a'.val) && decide (c.val ≤ 'z'.val)) = true := halpha
  simp only [Char.isDigit, Bool.and_eq_true, Bool.or_eq_true, decide_eq_true_eq,
    UInt32.le_iff_toNat_le, ge_iff_le] at h hletter
  have hnine : '9'.val.toNat = 57 := rfl
  have hupper : 'A'.val.toNat = 65 := rfl
  have hlower : 'a'.val.toNat = 97 := rfl
  omega

/-! ## Longest fronts -/

theorem of_mem_takeWhile {p : Char → Bool} {s : List Char} {c : Char} (h : c ∈ s.takeWhile p) :
    p c :=
  List.all_eq_true.1 List.all_takeWhile c h

/-- What is left after the longest front does not go on with it. -/
theorem of_mem_head?_dropWhile {p : Char → Bool} {s : List Char} {c : Char}
    (h : c ∈ (s.dropWhile p).head?) : p c = false := by
  have hhead := List.head?_dropWhile_not p s
  rw [Option.mem_def.1 h] at hhead
  exact hhead

namespace Text

/-! ## Printable ASCII -/

/-- A character of printable ASCII. -/
def IsPlain (c : Char) : Prop := ' ' ≤ c ∧ c ≤ '~'

instance (c : Char) : Decidable (IsPlain c) := inferInstanceAs (Decidable (' ' ≤ c ∧ c ≤ '~'))

theorem IsPlain.bounds {c : Char} (h : IsPlain c) : 0x20 ≤ c.toNat ∧ c.toNat ≤ 0x7E := h

theorem IsPlain.not_lineBoundary {c : Char} (h : IsPlain c) : isLineBoundary c = false := by
  obtain ⟨hlow, hhigh⟩ := h.bounds
  simp [isLineBoundary, lineBoundaries, CodeSet.holds]
  omega

/-! ## Bytes of ASCII -/

namespace Utf8

theorem utf8EncodeChar_ascii {c : Char} (h : c.toNat < 0x80) :
    String.utf8EncodeChar c = [UInt8.ofNat c.toNat] := by
  have hc : c.val.toNat ≤ 0x7F := Nat.le_of_lt_succ h
  rw [String.utf8EncodeChar, if_pos hc]
  rfl

/-- The bytes of plain text are those of its characters, and no line feed is among them. -/
theorem not_mem_encode {s : List Char} (h : ∀ c ∈ s, IsPlain c) : 10 ∉ encode s := by
  intro hmem
  obtain ⟨c, hc, hbyte⟩ := List.mem_flatMap.1 hmem
  obtain ⟨hlow, hhigh⟩ := (h c hc).bounds
  rw [utf8EncodeChar_ascii (by omega)] at hbyte
  have hcode := congrArg UInt8.toNat (List.mem_singleton.1 hbyte)
  rw [UInt8.toNat_ofNat_of_lt' (by show c.toNat < 256; omega)] at hcode
  rw [← hcode] at hlow
  exact absurd hlow (by decide)

theorem decodeParts_ascii {n : Nat} (h : n < 0x80) (bytes : List UInt8) :
    decodeParts (UInt8.ofNat n :: bytes) = .complete n :: decodeParts bytes := by
  have hn : (UInt8.ofNat n).toNat = n := Nat.mod_eq_of_lt (Nat.lt_trans h (by decide))
  have hstep : step (UInt8.ofNat n) bytes = (.complete n, bytes) := by
    rw [step, hn, lead?, if_pos h]
    rfl
  rw [decodeParts, hstep]

/-- **ASCII is decoded to itself**, whatever bytes follow. -/
theorem decodeLossy_encode_append {s : List Char} (h : ∀ c ∈ s, c.toNat < 0x80)
    (bytes : List UInt8) : decodeLossy (encode s ++ bytes) = s ++ decodeLossy bytes := by
  induction s with
  | nil => rfl
  | cons c s ih =>
      have hc := h c List.mem_cons_self
      have hrest := ih fun c' hc' => h c' (List.mem_cons_of_mem c hc')
      rw [encode, List.flatMap_cons, utf8EncodeChar_ascii hc, ← encode, List.cons_append,
        List.cons_append, decodeLossy, List.nil_append, decodeParts_ascii hc, List.map_cons,
        ← decodeLossy, hrest, List.cons_append]
      exact congrArg (· :: _) (Char.ofNat_toNat c)

theorem decodeLossy_encode {s : List Char} (h : ∀ c ∈ s, c.toNat < 0x80) :
    decodeLossy (encode s) = s := by
  have hnil : decodeLossy [] = [] := by rw [decodeLossy, decodeParts, List.map_nil]
  have happend := decodeLossy_encode_append h []
  rwa [hnil, List.append_nil, List.append_nil] at happend

end Utf8

/-! ## Lines -/

theorem splitLinesFrom_cons {c : Char} (h : isLineBoundary c = false) (current rest : List Char) :
    splitLinesFrom current (c :: rest) = splitLinesFrom (c :: current) rest := by
  rw [splitLinesFrom, if_neg (Bool.eq_false_iff.1 h)]
  -- the carriage return, which is read together with a line feed behind it, ends a line too
  rintro rest rfl
  cases h

/-- A line is read up to the line feed behind it. -/
theorem splitLinesFrom_append {s : List Char} (h : ∀ c ∈ s, isLineBoundary c = false)
    (current rest : List Char) :
    splitLinesFrom current (s ++ '\n' :: rest) =
      (current.reverse ++ s) :: splitLinesFrom [] rest := by
  induction s generalizing current with
  | nil =>
      have hfeed : splitLinesFrom current ('\n' :: rest) =
          current.reverse :: splitLinesFrom [] rest := by
        rw [splitLinesFrom, if_pos (by decide)]
        rintro rest h
        cases h
      rw [List.nil_append, hfeed, List.append_nil]
  | cons c s ih =>
      have hc := h c List.mem_cons_self
      rw [List.cons_append, splitLinesFrom_cons hc,
        ih (fun c' hc' => h c' (List.mem_cons_of_mem c hc')), List.reverse_cons, List.append_assoc]
      rfl

/-- **Lines that are written with a line feed behind each are found again.** -/
theorem splitLines_flatMap {lines : List (List Char)}
    (h : ∀ l ∈ lines, ∀ c ∈ l, isLineBoundary c = false) :
    splitLines (lines.flatMap (· ++ ['\n'])) = lines := by
  induction lines with
  | nil => rfl
  | cons l lines ih =>
      have hl := h l List.mem_cons_self
      rw [List.flatMap_cons, List.append_assoc, List.singleton_append, splitLines,
        splitLinesFrom_append hl, ← splitLines, ih fun l' hl' => h l' (List.mem_cons_of_mem l hl')]
      rfl

/-- A text that is not blank at either end is kept whole. -/
theorem trim_enclosed {a b : Char} (ha : isBlank a = false) (hb : isBlank b = false)
    (s : List Char) : trim (a :: (s ++ [b])) = a :: (s ++ [b]) := by
  have hfront : (a :: (s ++ [b])).dropWhile isBlank = a :: (s ++ [b]) :=
    List.dropWhile_cons_of_neg (Bool.eq_false_iff.1 ha)
  have hback : (a :: (s ++ [b])).reverse = b :: (s.reverse ++ [a]) := by simp
  have hkeep : (b :: (s.reverse ++ [a])).dropWhile isBlank = b :: (s.reverse ++ [a]) :=
    List.dropWhile_cons_of_neg (Bool.eq_false_iff.1 hb)
  rw [trim, hfront, hback, hkeep, ← hback, List.reverse_reverse]

end Text

end Calculator
