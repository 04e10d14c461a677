import Calculator.Proofs.Source.Delivery

/-!
# Lines of a source

The physical lines of a text lie between its line feeds. Text that has been passed keeps them: the
finished ones without the carriage returns at their ends, and the beginning of the current one
(`Passed.Holds`, `Passed.holds_passAll`). So the text shown for a line is the beginning of the
physical line with its number (`Passed.Holds.lineText_isPrefix`), and what was passed of it last
stays in it for good unless it ends in a return (`Passed.isPrefix_lineText_passAll`).
-/

set_option autoImplicit false

namespace Calculator

/-! ## Physical lines -/

/-- The lines of a text, which line feeds separate. -/
def physicalLines (s : List Char) : List (List Char) := s.splitOn '\n'

/-- A line without the carriage returns at its end. -/
def chomp (line : List Char) : List Char := (line.reverse.dropWhile (· = '\r')).reverse

theorem chomp_isPrefix (line : List Char) : chomp line <+: line := by
  rw [chomp, ← List.reverse_suffix, List.reverse_reverse]
  exact List.dropWhile_suffix _

/-- The beginning of a line stays in it without the returns if it ends in none. -/
theorem isPrefix_chomp {front line : List Char} (h : front <+: line)
    (hlast : ∀ c ∈ front.getLast?, c ≠ '\r') : front <+: chomp line := by
  obtain ⟨rest, rfl⟩ := h
  rw [chomp, List.reverse_append, List.dropWhile_append]
  split
  · refine ⟨[], ?_⟩
    have hkeep : front.reverse.dropWhile (· = '\r') = front.reverse := by
      cases hr : front.reverse with
      | nil => rfl
      | cons c cs =>
          have hc : c ∈ front.getLast? := by
            rw [← List.reverse_reverse front, hr, List.getLast?_reverse]
            rfl
          exact List.dropWhile_cons_of_neg (by simpa using hlast c hc)
    rw [hkeep, List.reverse_reverse, List.append_nil]
  · rw [List.reverse_append, List.reverse_reverse]
    exact List.prefix_append _ _

/-- The lines of two texts in a row: the last line of the first one goes on with the first line of
the second one. -/
theorem physicalLines_append (s : List Char) :
    ∃ front last, physicalLines s = front ++ [last] ∧
      ∀ t, physicalLines (s ++ t) = front ++ (physicalLines t).modifyHead (last ++ ·) := by
  induction s with
  | nil =>
      refine ⟨[], [], List.splitOn_nil _, ?_⟩
      intro t
      cases h : physicalLines t with
      | nil => exact absurd h (List.splitOn_ne_nil _ _)
      | cons line lines => simp [h]
  | cons c s ih =>
      obtain ⟨front, last, hlines, happend⟩ := ih
      unfold physicalLines at hlines happend ⊢
      by_cases hc : c = '\n'
      · -- a line feed puts an empty line before the lines of the rest
        refine ⟨[] :: front, last, ?_, ?_⟩
        · rw [List.splitOn_cons_eq_if_modifyHead, if_pos (beq_iff_eq.2 hc), hlines,
            List.cons_append]
        · intro t
          rw [List.cons_append, List.splitOn_cons_eq_if_modifyHead, if_pos (beq_iff_eq.2 hc),
            happend t, List.cons_append]
      · have hne : ¬ (c == '\n') = true := fun h => hc (beq_iff_eq.1 h)
        -- another character belongs to the first line, which may be the last one too
        cases front with
        | nil =>
            refine ⟨[], c :: last, ?_, ?_⟩
            · rw [List.splitOn_cons_eq_if_modifyHead, if_neg hne, hlines]
              rfl
            · intro t
              rw [List.cons_append, List.splitOn_cons_eq_if_modifyHead, if_neg hne, happend t]
              cases List.splitOn '\n' t <;> rfl
        | cons first front =>
            refine ⟨(c :: first) :: front, last, ?_, ?_⟩
            · rw [List.splitOn_cons_eq_if_modifyHead, if_neg hne, hlines]
              rfl
            · intro t
              rw [List.cons_append, List.splitOn_cons_eq_if_modifyHead, if_neg hne, happend t]
              rfl

theorem physicalLines_append_of_eq {s last : List Char} {front : List (List Char)}
    (h : physicalLines s = front ++ [last]) (t : List Char) :
    physicalLines (s ++ t) = front ++ (physicalLines t).modifyHead (last ++ ·) := by
  obtain ⟨front', last', hlines, happend⟩ := physicalLines_append s
  obtain ⟨rfl, hlast⟩ := List.append_inj' (h.symm.trans hlines) rfl
  obtain rfl := (List.cons.inj hlast).1
  exact happend t

/-- No line contains a line feed. -/
theorem newline_notMem_of_mem_physicalLines {s line : List Char} (h : line ∈ physicalLines s) :
    '\n' ∉ line := by
  induction s generalizing line with
  | nil =>
      obtain rfl := List.mem_singleton.1 h
      exact List.not_mem_nil
  | cons c s ih =>
      rw [physicalLines] at h ih
      rw [List.splitOn_cons_eq_if_modifyHead] at h
      split at h
      · rcases List.mem_cons.1 h with rfl | h
        · exact List.not_mem_nil
        · exact ih h
      · rename_i hc
        cases hlines : List.splitOn '\n' s with
        | nil => exact absurd hlines (List.splitOn_ne_nil _ _)
        | cons first rest =>
            rw [hlines] at h ih
            rcases List.mem_cons.1 h with rfl | h
            · have hfirst := ih List.mem_cons_self
              intro hmem
              rcases List.mem_cons.1 hmem with hmem | hmem
              · exact hc (beq_iff_eq.2 hmem.symm)
              · exact hfirst hmem
            · exact ih (List.mem_cons_of_mem _ h)

namespace Passed

/-! ## What is kept of the lines -/

/-- What has been passed is the text `s`: its finished lines without the returns at their ends, and
its last line. -/
def Holds (p : Passed) (s : List Char) : Prop :=
  ∃ front, physicalLines s = front ++ [p.current.reverse] ∧ p.lines.reverse = front.map chomp

theorem holds_start : start.Holds [] := ⟨[], List.splitOn_nil _, rfl⟩

/-- The text passed goes on with the next character. -/
theorem Holds.pass {p : Passed} {s : List Char} (h : p.Holds s) (c : Char) :
    (p.pass c).Holds (s ++ [c]) := by
  obtain ⟨front, hlines, hkept⟩ := h
  have happend := physicalLines_append_of_eq hlines [c]
  rw [Passed.pass]
  split
  · rename_i hc
    refine ⟨front ++ [p.current.reverse], ?_, ?_⟩
    · rw [happend, hc, physicalLines, List.splitOn_cons_eq_if_modifyHead,
        if_pos (beq_self_eq_true _)]
      simp
    · simp [hkept, chomp]
  · rename_i hc
    refine ⟨front, ?_, hkept⟩
    rw [happend, physicalLines, List.splitOn_eq_singleton (by simpa using Ne.symm hc)]
    simp

theorem Holds.passAll {p : Passed} {s : List Char} (h : p.Holds s) (t : List Char) :
    (p.passAll t).Holds (s ++ t) := by
  induction t generalizing p s with
  | nil => rwa [List.append_nil]
  | cons c t ih =>
      have hnext := ih (h.pass c)
      rwa [List.append_assoc, List.singleton_append] at hnext

/-- Passing a text from the start keeps its lines. -/
theorem holds_passAll (s : List Char) : (start.passAll s).Holds s := holds_start.passAll s

/-! ## The text of a line -/

theorem lineText_self (p : Passed) : p.lineText p.lineNumber = p.currentLine := if_pos rfl

theorem lineText_of_lt {p : Passed} {n : Nat} (h : n < p.lines.length) :
    p.lineText (n + 1 : Nat) = String.ofList (p.lines.reverse.getD n []) := by
  have hnumber := p.lineNumber_eq
  have hne : ((n + 1 : Nat) : Int) ≠ p.lineNumber := by omega
  have hlt : 1 ≤ ((n + 1 : Nat) : Int) ∧ ((n + 1 : Nat) : Int) < p.lineNumber := by omega
  have hindex : (((n + 1 : Nat) : Int) - 1).toNat = n := by omega
  rw [lineText, if_neg hne, if_pos hlt, hindex]

/-- The text of a line is the beginning of the physical line with its number, in whatever text goes
on from the text passed. -/
theorem Holds.lineText_isPrefix {p : Passed} {s : List Char} (h : p.Holds s) (rest : List Char)
    {n : Nat} (hn : n < p.lineNumber) :
    ∃ line, (physicalLines (s ++ rest))[n]? = some line ∧
      (p.lineText (n + 1 : Nat)).toList <+: line := by
  obtain ⟨front, hlines, hkept⟩ := h
  have happend := physicalLines_append_of_eq hlines rest
  have hlength : p.lines.length = front.length := by
    rw [← List.length_reverse, hkept, List.length_map]
  have hnumber := p.lineNumber_eq
  rw [happend]
  by_cases hcurrent : n = front.length
  · -- the current line, with which the rest goes on
    have hself : ((n + 1 : Nat) : Int) = p.lineNumber := by omega
    rw [hself, lineText_self, currentLine, String.toList_ofList, hcurrent,
      List.getElem?_append_right (Nat.le_refl _), Nat.sub_self]
    cases hrest : physicalLines rest with
    | nil => exact absurd hrest (List.splitOn_ne_nil _ _)
    | cons first others => exact ⟨_, rfl, List.prefix_append _ _⟩
  · have hfront : n < front.length := by omega
    rw [List.getElem?_append_left hfront, lineText_of_lt (by omega), String.toList_ofList, hkept,
      List.getD_eq_getElem?_getD, List.getElem?_map, List.getElem?_eq_getElem hfront]
    exact ⟨_, rfl, chomp_isPrefix _⟩

/-- Finished lines stay as they are. -/
theorem lineText_pass {p : Passed} {n : Nat} (h : n < p.lines.length) (c : Char) :
    (p.pass c).lineText (n + 1 : Nat) = p.lineText (n + 1 : Nat) ∧
      n < (p.pass c).lines.length := by
  have hlines : p.lines <:+ (p.pass c).lines := by
    rw [Passed.pass]
    split
    · exact List.suffix_cons _ _
    · exact List.suffix_refl _
  have hlt : n < (p.pass c).lines.length := Nat.lt_of_lt_of_le h hlines.length_le
  refine ⟨?_, hlt⟩
  rw [lineText_of_lt h, lineText_of_lt hlt]
  obtain ⟨newer, hnewer⟩ := hlines
  rw [← hnewer, List.reverse_append, List.getD_eq_getElem?_getD, List.getD_eq_getElem?_getD,
    List.getElem?_append_left (by simpa using h)]

/-- Passing text takes no line back. -/
theorem lineNumber_le_passAll (t : List Char) :
    ∀ p : Passed, p.lineNumber ≤ (p.passAll t).lineNumber := by
  induction t with
  | nil => exact fun p => Nat.le_refl _
  | cons c t ih =>
      intro p
      have hpass : p.lineNumber ≤ (p.pass c).lineNumber := by
        rw [Passed.pass]
        split
        · exact Nat.le_succ _
        · exact Nat.le_refl _
      exact Nat.le_trans hpass (ih (p.pass c))

theorem lineText_passAll {n : Nat} (t : List Char) :
    ∀ {p : Passed}, n < p.lines.length →
      (p.passAll t).lineText (n + 1 : Nat) = p.lineText (n + 1 : Nat) := by
  induction t with
  | nil => exact fun _ => rfl
  | cons c t ih =>
      intro p h
      obtain ⟨hsame, hlt⟩ := lineText_pass h c
      exact (ih hlt).trans hsame

/-- What was passed of the current line is shown at its front from then on, if no carriage return
ends it. -/
theorem isPrefix_lineText_passAll {front : List Char} (hlast : ∀ c ∈ front.getLast?, c ≠ '\r')
    (t : List Char) :
    ∀ {p : Passed}, front <+: p.current.reverse →
      front <+: ((p.passAll t).lineText p.lineNumber).toList := by
  -- the line stays current up to the first line feed, which finishes it
  induction t with
  | nil =>
      intro p h
      rw [show p.passAll [] = p from rfl, lineText_self, currentLine, String.toList_ofList]
      exact h
  | cons c t ih =>
      intro p h
      show front <+: (((p.pass c).passAll t).lineText p.lineNumber).toList
      by_cases hc : c = '\n'
      · have hlines : (p.pass c).lines = chomp p.current.reverse :: p.lines := by
          simp [Passed.pass, hc, chomp]
        have hlt : p.lines.length < (p.pass c).lines.length := by
          rw [hlines]
          exact Nat.lt_succ_self _
        rw [p.lineNumber_eq, lineText_passAll t hlt, lineText_of_lt hlt, String.toList_ofList,
          hlines, List.getD_eq_getElem?_getD, List.reverse_cons,
          List.getElem?_append_right (by simp), List.length_reverse, Nat.sub_self]
        exact isPrefix_chomp h hlast
      · have hcurrent : (p.pass c).current.reverse = p.current.reverse ++ [c] := by
          simp [Passed.pass, hc]
        have hnumber : (p.pass c).lineNumber = p.lineNumber := by simp [Passed.pass, hc]
        have hnext := ih (p := p.pass c) (h.trans (hcurrent ▸ List.prefix_append _ _))
        rwa [hnumber] at hnext

/-- A text without line feeds is passed on the current line. -/
theorem passAll_of_notMem {t : List Char} :
    ∀ {p : Passed}, '\n' ∉ t → (p.passAll t).current = t.reverse ++ p.current ∧
      (p.passAll t).lines = p.lines := by
  induction t with
  | nil => exact fun _ => ⟨rfl, rfl⟩
  | cons c t ih =>
      intro p h
      have hc : c ≠ '\n' := fun hc => h (hc ▸ List.mem_cons_self)
      obtain ⟨hcurrent, hlines⟩ := ih (p := p.pass c) fun ht => h (List.mem_cons_of_mem _ ht)
      have hpass : (p.pass c).current = c :: p.current ∧ (p.pass c).lines = p.lines := by
        simp [Passed.pass, hc]
      show ((p.pass c).passAll t).current = _ ∧ ((p.pass c).passAll t).lines = _
      rw [hcurrent, hlines, hpass.1, hpass.2, List.reverse_cons, List.append_assoc]
      exact ⟨rfl, rfl⟩

end Passed

end Calculator
