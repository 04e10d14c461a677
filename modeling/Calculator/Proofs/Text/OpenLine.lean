import Calculator.Proofs.Text.Plain

/-!
# Text behind an open line

The open line of a text is what it holds behind its last line end (`openLine`). Text that is written
behind goes on with this line: it is the open line and the text that are found together as one line
(`splitLines_append_line`). Bytes that start with ASCII are decoded apart from what stands before
them, even where they cut a character short (`decodeLossy_append`).
-/

set_option autoImplicit false

namespace Calculator.Text

/-! ## Bytes -/

namespace Utf8

/-- Bytes that start with ASCII, or none. -/
def GoesOnPlainly (x : List UInt8) : Prop := ∀ b ∈ x.head?, b.toNat < 0x80

variable {x : List UInt8}

/-- A character is the same with ASCII behind it; one that is cut short is ill-formed both ways. -/
theorem follow_append (hx : GoesOnPlainly x) {n low : Nat} (hlow : n = 0 ∨ 0x80 ≤ low)
    (high code : Nat) (bytes : List UInt8) :
    (follow n low high code (bytes ++ x)).1.shown = (follow n low high code bytes).1.shown ∧
      (follow n low high code (bytes ++ x)).2 = (follow n low high code bytes).2 ++ x := by
  induction bytes generalizing n low high code with
  | nil =>
      cases n with
      | zero => simp [follow]
      | succ n =>
          cases x with
          | nil => exact ⟨rfl, rfl⟩
          | cons b x =>
              have hb : b.toNat < 0x80 := hx b rfl
              have hout : ¬ (low ≤ b.toNat ∧ b.toNat ≤ high) := by omega
              have hbroken : follow (n + 1) low high code (b :: x) = (.broken, b :: x) := by
                rw [follow, if_neg hout]
              rw [List.nil_append, hbroken]
              exact ⟨rfl, rfl⟩
  | cons b bytes ih =>
      cases n with
      | zero => simp [follow]
      | succ n =>
          rw [List.cons_append, follow, follow]
          split
          · exact ih (.inr (Nat.le_refl _)) _ _
          · exact ⟨rfl, rfl⟩

theorem low_of_lead? {b : Nat} {lead : Lead} (h : lead? b = some lead) :
    lead.following = 0 ∨ 0x80 ≤ lead.low := by
  unfold lead? at h
  repeat' split at h
  all_goals cases h
  -- of the leads only that of ASCII has no range, and nothing follows it
  · exact .inl rfl
  all_goals exact .inr (Nat.le_of_ble_eq_true rfl)

theorem step_append (hx : GoesOnPlainly x) (b : UInt8) (bytes : List UInt8) :
    (step b (bytes ++ x)).1.shown = (step b bytes).1.shown ∧
      (step b (bytes ++ x)).2 = (step b bytes).2 ++ x := by
  unfold step
  cases hlead : lead? b.toNat with
  | none => exact ⟨rfl, rfl⟩
  | some lead => exact follow_append hx (low_of_lead? hlead) _ _ _

/-- **Bytes that start with ASCII are decoded apart from those before them.** -/
theorem decodeLossy_append (hx : GoesOnPlainly x) (bytes : List UInt8) :
    decodeLossy (bytes ++ x) = decodeLossy bytes ++ decodeLossy x := by
  unfold decodeLossy
  induction bytes using decodeParts.induct with
  | case1 => rw [List.nil_append, decodeParts, List.map_nil, List.nil_append]
  | case2 b bytes ih =>
      obtain ⟨hshown, hrest⟩ := step_append hx b bytes
      rw [List.cons_append, decodeParts, decodeParts, List.map_cons, List.map_cons, hshown, hrest,
        ih, List.cons_append]

end Utf8

/-! ## Lines -/

/-- The text behind the last line end. -/
def openLine (s : List Char) : List Char :=
  (s.reverse.takeWhile fun c => !isLineBoundary c).reverse

/-- The text up to the last line end. -/
def closedText (s : List Char) : List Char :=
  (s.reverse.dropWhile fun c => !isLineBoundary c).reverse

/-- The lines that have ended. -/
def closedLines (s : List Char) : List (List Char) := splitLines (closedText s)

theorem closedText_append_openLine (s : List Char) : closedText s ++ openLine s = s := by
  rw [closedText, openLine, ← List.reverse_append, List.takeWhile_append_dropWhile,
    List.reverse_reverse]

theorem not_lineBoundary_of_mem_openLine {s : List Char} {c : Char} (h : c ∈ openLine s) :
    isLineBoundary c = false := by
  have hc := of_mem_takeWhile (List.mem_reverse.1 h)
  simpa using hc

/-- A text up to its last line end ends in one, if it is not empty. -/
theorem isLineBoundary_of_getLast?_closedText {s : List Char} {c : Char}
    (h : (closedText s).getLast? = some c) : isLineBoundary c = true := by
  rw [closedText, List.getLast?_reverse] at h
  have hc := of_mem_head?_dropWhile h
  simpa using hc

/-- A line ends at each line end, but before the second of two that count as one. -/
theorem splitLinesFrom_boundary {c : Char} (hc : isLineBoundary c = true) {rest : List Char}
    (hrest : c = '\r' → rest.head? ≠ some '\n') (current : List Char) :
    splitLinesFrom current (c :: rest) = current.reverse :: splitLinesFrom [] rest := by
  rw [splitLinesFrom, if_pos hc]
  rintro rest rfl rfl
  exact hrest rfl rfl

theorem getLast?_cons_of_eq_some {c d : Char} {rest : List Char} (h : rest.getLast? = some d) :
    (c :: rest).getLast? = some d := by
  rw [List.getLast?_cons, h, Option.getD_some]

/-- Lines behind a line end are apart from those before it. -/
theorem splitLinesFrom_append_closed {t : List Char} (ht : t.head? ≠ some '\n') {s : List Char}
    (current : List Char) (hcurrent : s = [] → current = [])
    (hs : ∀ c, s.getLast? = some c → isLineBoundary c = true) :
    splitLinesFrom current (s ++ t) = splitLinesFrom current s ++ splitLines t := by
  fun_induction splitLinesFrom current s with
  | case1 current h =>
      rw [hcurrent rfl]
      rfl
  | case2 current h => exact absurd (hcurrent rfl) (by simpa using h)
  | case3 current rest ih =>
      have hrest : ∀ c, rest.getLast? = some c → isLineBoundary c = true := fun c hc =>
        hs c (getLast?_cons_of_eq_some (getLast?_cons_of_eq_some hc))
      rw [List.cons_append, List.cons_append, splitLinesFrom, ih (fun _ => rfl) hrest,
        List.cons_append]
  | case4 current c rest hcr hc ih =>
      have hrest : ∀ c', rest.getLast? = some c' → isLineBoundary c' = true := fun c' hc' =>
        hs c' (getLast?_cons_of_eq_some hc')
      have hbehind : c = '\r' → (rest ++ t).head? ≠ some '\n' := by
        intro hreturn
        cases rest with
        | nil => exact ht
        | cons d rest =>
            intro hfeed
            obtain rfl : d = '\n' := Option.some.inj hfeed
            exact hcr rest hreturn rfl
      rw [List.cons_append, splitLinesFrom_boundary hc hbehind, ih (fun _ => rfl) hrest,
        List.cons_append]
  | case5 current c rest hcr hc ih =>
      -- what does not end a line is not the last character
      have hne : rest ≠ [] := by
        rintro rfl
        exact hc (hs c rfl)
      have hrest : ∀ c', rest.getLast? = some c' → isLineBoundary c' = true := fun c' hc' =>
        hs c' (getLast?_cons_of_eq_some hc')
      rw [List.cons_append, splitLinesFrom_cons (Bool.eq_false_iff.2 hc),
        ih (fun hnil => absurd hnil hne) hrest]

/-- A text without line ends is one line, if it is not empty. -/
theorem splitLinesFrom_of_not_boundary {s : List Char} (h : ∀ c ∈ s, isLineBoundary c = false)
    (current : List Char) (hne : current.reverse ++ s ≠ []) :
    splitLinesFrom current s = [current.reverse ++ s] := by
  induction s generalizing current with
  | nil =>
      rw [List.append_nil] at hne ⊢
      rw [splitLinesFrom, if_neg (by simpa using hne)]
  | cons c s ih =>
      rw [splitLinesFrom_cons (h c List.mem_cons_self),
        ih (fun c' hc' => h c' (List.mem_cons_of_mem c hc')) _ (by simp), List.reverse_cons,
        List.append_assoc]
      rfl

theorem head?_openLine_append {s t : List Char} (ht : t.head? ≠ some '\n') :
    (openLine s ++ t).head? ≠ some '\n' := by
  cases hopen : openLine s with
  | nil => exact ht
  | cons c rest =>
      intro h
      obtain rfl : c = '\n' := Option.some.inj h
      have hmem : '\n' ∈ openLine s := hopen ▸ List.mem_cons_self
      cases not_lineBoundary_of_mem_openLine hmem

/-- The lines of a text with more behind it: the lines that have ended, and those of the open line
with what is behind it. -/
theorem splitLines_append_of_head {s t : List Char} (ht : t.head? ≠ some '\n') :
    splitLines (s ++ t) = closedLines s ++ splitLines (openLine s ++ t) := by
  have hsplit : s ++ t = closedText s ++ (openLine s ++ t) := by
    rw [← List.append_assoc, closedText_append_openLine]
  rw [hsplit]
  exact splitLinesFrom_append_closed (head?_openLine_append ht) [] (fun _ => rfl)
    fun c => isLineBoundary_of_getLast?_closedText

/-- The lines of a text are those that have ended, and the open line if it is not empty. -/
theorem splitLines_eq (s : List Char) :
    splitLines s = closedLines s ++ if openLine s = [] then [] else [openLine s] := by
  have hlines := splitLines_append_of_head (s := s) (t := []) (by simp)
  rw [List.append_nil, List.append_nil] at hlines
  rw [hlines]
  split
  · rename_i hopen
    rw [hopen]
    rfl
  · rename_i hopen
    rw [splitLines, splitLinesFrom_of_not_boundary (fun c => not_lineBoundary_of_mem_openLine)
      [] hopen]
    rfl

/-- **A line that is written behind a text goes on with its open line.** -/
theorem splitLines_append_line (s : List Char) {text : List Char}
    (h : ∀ c ∈ text, isLineBoundary c = false) (hne : text ≠ []) :
    splitLines (s ++ (text ++ ['\n'])) = closedLines s ++ [openLine s ++ text] := by
  obtain ⟨c, rest, rfl⟩ := List.exists_cons_of_ne_nil hne
  have hhead : ((c :: rest) ++ ['\n']).head? ≠ some '\n' := by
    intro hfeed
    obtain rfl : c = '\n' := Option.some.inj hfeed
    cases h '\n' List.mem_cons_self
  have hall : ∀ c' ∈ openLine s ++ c :: rest, isLineBoundary c' = false := by
    intro c' hc'
    rcases List.mem_append.1 hc' with hopen | htext
    · exact not_lineBoundary_of_mem_openLine hopen
    · exact h c' htext
  rw [splitLines_append_of_head hhead, ← List.append_assoc, splitLines, splitLinesFrom_append hall]
  rfl

/-! ## Blanks -/

/-- Of a text behind others only the blanks at the front of the others are left out, if it is
enclosed by characters that are not blank. -/
theorem trim_append_enclosed {a b : Char} (ha : isBlank a = false) (hb : isBlank b = false)
    (s inner : List Char) :
    trim (s ++ a :: (inner ++ [b])) = s.dropWhile isBlank ++ a :: (inner ++ [b]) := by
  induction s with
  | nil => exact trim_enclosed ha hb inner
  | cons c s ih =>
      cases hc : isBlank c with
      | true =>
          have hdrop :
              trim (c :: (s ++ a :: (inner ++ [b]))) = trim (s ++ a :: (inner ++ [b])) := by
            rw [trim, List.dropWhile_cons_of_pos hc]
            rfl
          rw [List.cons_append, hdrop, ih, List.dropWhile_cons_of_pos hc]
      | false =>
          have hkept : c :: (s ++ a :: (inner ++ [b])) = c :: ((s ++ a :: inner) ++ [b]) := by simp
          rw [List.cons_append, hkept, trim_enclosed hc hb,
            List.dropWhile_cons_of_neg (Bool.eq_false_iff.1 hc), ← hkept]
          rfl

end Calculator.Text
