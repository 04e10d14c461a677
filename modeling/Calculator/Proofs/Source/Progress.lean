import Calculator.Proofs.Source.Items
import Calculator.Proofs.Source.Lines

/-!
# Scanning on and on

What repeated scans of a source do, also after diagnostics. Each scan takes a segment of the
source that its result accounts for (`Takes`): blanks, and behind them a line feed, the text of the
token, or the word read so far with the character that is out of place. The segments in a row are
the source; the end of the input is found after at most as many scans as there are characters, and
then again by every later scan. At all times the position and the texts of lines are those of the
text taken so far (`ScansThrough`, `scan_lossless`).
-/

set_option autoImplicit false

namespace Calculator

/-! ## Positions in a text -/

/-- The last line of a text. -/
def lastLine (s : List Char) : List Char := (s.reverse.takeWhile (· ≠ '\n')).reverse

/-- The position behind a text. -/
def Position.behind (s : List Char) : Position := ⟨s.count '\n' + 1, (lastLine s).length + 1⟩

theorem lastLine_concat_newline (s : List Char) : lastLine (s ++ ['\n']) = [] := by
  simp [lastLine]

theorem lastLine_concat {c : Char} (hc : c ≠ '\n') (s : List Char) :
    lastLine (s ++ [c]) = lastLine s ++ [c] := by
  simp [lastLine, hc]

namespace Passed

/-- The current line and its number are those of the text `s`. -/
def IsBehind (p : Passed) (s : List Char) : Prop :=
  p.current.reverse = lastLine s ∧ p.lineNumber = s.count '\n' + 1

/-- The next character finishes the line or goes on with it. -/
theorem IsBehind.pass {p : Passed} {s : List Char} (h : p.IsBehind s) (c : Char) :
    (p.pass c).IsBehind (s ++ [c]) := by
  obtain ⟨hcurrent, hnumber⟩ := h
  rw [Passed.pass]
  split
  · rename_i hc
    subst hc
    refine ⟨(lastLine_concat_newline s).symm, ?_⟩
    show p.lineNumber + 1 = _
    rw [hnumber, List.count_append]
    rfl
  · rename_i hc
    refine ⟨?_, ?_⟩
    · rw [List.reverse_cons, hcurrent, lastLine_concat hc]
    · rw [List.count_append, List.count_singleton, if_neg (by simpa using hc)]
      exact hnumber

theorem IsBehind.passAll {p : Passed} {s : List Char} (h : p.IsBehind s) (t : List Char) :
    (p.passAll t).IsBehind (s ++ t) := by
  induction t generalizing p s with
  | nil => rwa [List.append_nil]
  | cons c t ih =>
      have hnext := ih (h.pass c)
      rwa [List.append_assoc, List.singleton_append] at hnext

theorem isBehind_passAll (s : List Char) : (start.passAll s).IsBehind s :=
  IsBehind.passAll (p := start) (s := []) ⟨rfl, rfl⟩ s

theorem position_passAll (s : List Char) : (start.passAll s).position = .behind s := by
  obtain ⟨hcurrent, hnumber⟩ := isBehind_passAll s
  have hlength : (start.passAll s).current.length = (lastLine s).length := by
    rw [← hcurrent, List.length_reverse]
  rw [position, column_eq, hlength, hnumber]
  rfl

theorem currentLine_passAll (s : List Char) :
    (start.passAll s).currentLine = String.ofList (lastLine s) := by
  rw [currentLine, (isBehind_passAll s).1]

/-- The text of a finished line is the line of the source without the returns at its end. -/
theorem Holds.lineText_finished {p : Passed} {s : List Char} (h : p.Holds s) (rest : List Char)
    {n : Nat} (hn : n + 1 < p.lineNumber) :
    ∃ line, (physicalLines (s ++ rest))[n]? = some line ∧
      p.lineText (n + 1 : Nat) = String.ofList (chomp line) := by
  obtain ⟨front, hlines, hkept⟩ := h
  have hnumber := p.lineNumber_eq
  have hlength : p.lines.length = front.length := by
    rw [← List.length_reverse, hkept, List.length_map]
  have hfront : n < front.length := by omega
  refine ⟨front[n], ?_, ?_⟩
  · rw [physicalLines_append_of_eq hlines rest, List.getElem?_append_left hfront,
      List.getElem?_eq_getElem hfront]
  · rw [lineText_of_lt (by omega), hkept, List.getD_eq_getElem?_getD, List.getElem?_map,
      List.getElem?_eq_getElem hfront]
    rfl

theorem lineText_of_outside {p : Passed} {n : Int} (h : n < 1 ∨ p.lineNumber < n) :
    p.lineText n = "" := by
  have hnumber := p.lineNumber_eq
  have hne : n ≠ p.lineNumber := by omega
  have hnot : ¬ (1 ≤ n ∧ n < p.lineNumber) := by omega
  rw [lineText, if_neg hne, if_neg hnot]

end Passed

/-! ## What a scan takes -/

/-- Blanks that end no line. -/
def InlineBlanks (s : List Char) : Prop := ∀ c ∈ s, Text.isBlank c ∧ c ≠ '\n'

theorem inlineBlanks_read (s : List Char) : InlineBlanks (read s).blanks := by
  intro c hc
  have hblank : isInlineBlank c := of_mem_takeWhile hc
  simpa [isInlineBlank] using hblank

/-- The result of a scan behind the text `before`, and the characters that the scan takes. -/
inductive Takes (before : List Char) : Except Diagnostic Token → List Char → Prop where
  | finished {blanks} : InlineBlanks blanks →
      Takes before (.ok ⟨⟨.endOfInput, ""⟩, .behind (before ++ blanks)⟩) blanks
  | lineEnd {blanks} : InlineBlanks blanks →
      Takes before (.ok ⟨⟨.endOfLine, ""⟩, .behind (before ++ (blanks ++ ['\n']))⟩)
        (blanks ++ ['\n'])
  | token {blanks kind text} : InlineBlanks blanks → IsLexeme kind text →
      Takes before (.ok ⟨⟨kind, String.ofList text⟩, .behind (before ++ blanks)⟩) (blanks ++ text)
  | fault {blanks cause word offender} : InlineBlanks blanks → Interrupted cause word offender →
      Takes before
        (.error (.ofScan cause.name
          (String.ofList (lastLine (before ++ (blanks ++ (word ++ [offender])))))
          (.behind (before ++ (blanks ++ word)))))
        (blanks ++ (word ++ [offender]))

/-- The result of a scan for an item that stands behind the text `before`. -/
def Item.result (before : List Char) : Item → Except Diagnostic Token
  | .finished => .ok ⟨⟨.endOfInput, ""⟩, .behind before⟩
  | .lineFeed => .ok ⟨⟨.endOfLine, ""⟩, .behind (before ++ ['\n'])⟩
  | .lexeme kind text => .ok ⟨⟨kind, String.ofList text⟩, .behind before⟩
  | .fault cause word offender =>
    .error (.ofScan cause.name (String.ofList (lastLine (before ++ (word ++ [offender]))))
      (.behind (before ++ word)))

/-- The scan has come to the end of the input. -/
def EndsInput (result : Except Diagnostic Token) : Prop :=
  ∃ t, result = .ok t ∧ t.kind = .endOfInput

/-- The end of the input is at the end of what has been taken. -/
theorem Takes.endsInput {before segment : List Char} {result : Except Diagnostic Token}
    (h : Takes before result segment) (hend : EndsInput result) :
    result = .ok ⟨⟨.endOfInput, ""⟩, .behind (before ++ segment)⟩ := by
  obtain ⟨t, rfl, hkind⟩ := hend
  cases h with
  | finished _ => rfl
  | lineEnd _ => cases hkind
  | token _ hlexeme => exact absurd hkind hlexeme.kind_ne.1

/-- A scan before the end of the input takes characters. -/
theorem Takes.ne_nil {before segment : List Char} {result : Except Diagnostic Token}
    (h : Takes before result segment) (hend : ¬ EndsInput result) : segment ≠ [] := by
  cases h with
  | finished _ => exact absurd ⟨_, rfl, rfl⟩ hend
  | lineEnd _ => simp
  | token _ hlexeme => simp [hlexeme.ne_nil]
  | fault _ _ => simp

namespace Cursor

/-- The characters that the next scan takes. -/
def taken (c : Cursor) : List Char := (read c.ahead).blanks ++ (read c.ahead).item.chars

theorem ahead_eq_taken_append (c : Cursor) : c.ahead = c.taken ++ c.scan.2.ahead := by
  rw [taken, List.append_assoc]
  exact (read_append c.ahead).symm

theorem passed_scan_eq_passAll (c : Cursor) : c.scan.2.passed = c.passed.passAll c.taken := by
  rw [taken, Passed.passAll_append]
  rfl

/-- A scan returns the result for its item, which stands behind the blanks. -/
theorem scan_fst_eq {c : Cursor} {before : List Char}
    (h : c.passed = Passed.start.passAll before) :
    c.scan.1 = (read c.ahead).item.result (before ++ (read c.ahead).blanks) := by
  have hposition (t : List Char) : (c.passed.passAll t).position = .behind (before ++ t) := by
    rw [h, ← Passed.passAll_append, Passed.position_passAll]
  simp only [scan, report]
  cases (read c.ahead).item with
  | finished => rw [hposition, Item.result]
  | lineFeed =>
      have hfeed : ((c.passed.passAll (read c.ahead).blanks).pass '\n').position =
          .behind (before ++ (read c.ahead).blanks ++ ['\n']) := by
        rw [List.append_assoc, ← hposition, Passed.passAll_append]
        rfl
      simp only [hfeed, Item.result]
  | lexeme kind text => rw [hposition, Item.result]
  | fault cause word offender =>
      have hat : ((c.passed.passAll (read c.ahead).blanks).passAll word).position =
          .behind (before ++ (read c.ahead).blanks ++ word) := by
        rw [List.append_assoc, ← hposition, Passed.passAll_append]
      have hline : (((c.passed.passAll (read c.ahead).blanks).passAll word).pass
          offender).currentLine =
          String.ofList (lastLine (before ++ (read c.ahead).blanks ++ (word ++ [offender]))) := by
        rw [← Passed.currentLine_passAll, Passed.passAll_append, Passed.passAll_append,
          Passed.passAll_append, ← h]
        rfl
      simp only [hat, hline, Item.result]

/-- A scan takes the characters that its result accounts for. -/
theorem takes_scan {c : Cursor} {before : List Char}
    (h : c.passed = Passed.start.passAll before) : Takes before c.scan.1 c.taken := by
  have hblanks := inlineBlanks_read c.ahead
  rw [scan_fst_eq h, taken]
  cases hitem : (read c.ahead).item with
  | finished =>
      simp only [Item.chars, Item.result, List.append_nil]
      exact .finished hblanks
  | lineFeed =>
      simp only [Item.chars, Item.result, List.append_assoc]
      exact .lineEnd hblanks
  | lexeme kind text => exact .token hblanks (isLexeme_of_read hitem)
  | fault cause word offender =>
      simp only [Item.chars, Item.result, List.append_assoc]
      exact .fault hblanks (interrupted_of_read hitem)

/-! ## Many scans -/

/-- The cursor behind so many scans, whatever they have returned. -/
def after (c : Cursor) : Nat → Cursor
  | 0 => c
  | n + 1 => (c.after n).scan.2

theorem after_scan (c : Cursor) (n : Nat) : c.scan.2.after n = c.after (n + 1) := by
  induction n with
  | zero => rfl
  | succ n ih => exact congrArg (fun c => c.scan.2) ih

/-- All that the first scans take. -/
def takenIn (c : Cursor) (n : Nat) : List Char := (List.range n).flatMap fun i => (c.after i).taken

theorem takenIn_succ (c : Cursor) (n : Nat) :
    c.takenIn (n + 1) = c.takenIn n ++ (c.after n).taken := by
  simp only [takenIn, List.range_succ, List.flatMap_append, List.flatMap_singleton]

/-- The scans take the text from its front, and pass what they take. -/
theorem after_eq (c : Cursor) (n : Nat) :
    c.ahead = c.takenIn n ++ (c.after n).ahead ∧
      (c.after n).passed = c.passed.passAll (c.takenIn n) := by
  induction n with
  | zero => exact ⟨rfl, rfl⟩
  | succ n ih =>
      obtain ⟨hahead, hpassed⟩ := ih
      rw [takenIn_succ]
      refine ⟨?_, ?_⟩
      · rw [List.append_assoc]
        exact hahead.trans (congrArg (c.takenIn n ++ ·) (ahead_eq_taken_append _))
      · rw [Passed.passAll_append, ← hpassed]
        exact passed_scan_eq_passAll _

theorem item_eq_finished_iff (c : Cursor) : EndsInput c.scan.1 ↔ (read c.ahead).item = .finished := by
  constructor
  · rintro ⟨t, hscan, hkind⟩
    obtain ⟨-, ⟨hitem, -, -⟩ | ⟨kind, text, hitem, hkind', -⟩⟩ :=
      token_of_scan hscan (by simp [hkind])
    · exact hitem
    · exact absurd (hkind'.symm.trans hkind) (lexeme_ne_endOfInput hitem)
  · intro hitem
    refine ⟨⟨⟨.endOfInput, ""⟩, c.atItem.passed.position⟩, ?_, rfl⟩
    simp only [scan, report, hitem, atItem]

/-- The end of the input comes after at most as many scans as there are characters. -/
theorem exists_endsInput (c : Cursor) :
    ∃ k ≤ c.ahead.length, EndsInput (c.after k).scan.1 ∧
      ∀ n < k, ¬ EndsInput (c.after n).scan.1 := by
  by_cases hend : EndsInput c.scan.1
  · exact ⟨0, Nat.zero_le _, hend, fun n hn => absurd hn (Nat.not_lt_zero n)⟩
  · have hlt : c.scan.2.ahead.length < c.ahead.length :=
      length_rest_read_lt fun hitem => hend (c.item_eq_finished_iff.2 hitem)
    obtain ⟨k, hk, hfound, hbefore⟩ := c.scan.2.exists_endsInput
    refine ⟨k + 1, by omega, after_scan c k ▸ hfound, ?_⟩
    intro n hn
    cases n with
    | zero => exact hend
    | succ n => exact after_scan c n ▸ hbefore n (Nat.lt_of_succ_lt_succ hn)
termination_by c.ahead.length

/-- Behind the end of the input nothing is left, so it is found again and again. -/
theorem endsInput_after {c : Cursor} {k : Nat} (h : EndsInput (c.after k).scan.1) :
    ∀ n, k ≤ n → EndsInput (c.after n).scan.1 ∧ (c.after (n + 1)).ahead = [] := by
  intro n hn
  induction hn with
  | refl => exact ⟨h, rest_of_finished ((item_eq_finished_iff _).1 h)⟩
  | @step n hn ih =>
      have hnil := ih.2
      have hitem : (read (c.after (n + 1)).ahead).item = .finished := by
        rw [hnil]
        rfl
      exact ⟨(item_eq_finished_iff _).2 hitem, rest_of_finished hitem⟩

end Cursor

/-! ## The source as the scans see it -/

/-- Scanning on and on through the source `s`, where scan number `n` takes the characters
`segment n`. -/
structure ScansThrough (s : List Char) (segment : Nat → List Char) : Prop where
  /-- The segments in a row are the source as far as it has been scanned. -/
  lossless : ∀ n, s = (List.range n).flatMap segment ++ ((Cursor.ofText s).after n).ahead
  /-- A scan takes what its result accounts for. -/
  takes : ∀ n, Takes ((List.range n).flatMap segment) ((Cursor.ofText s).after n).scan.1
    (segment n)
  /-- Before the end of the input every scan takes characters. -/
  progress : ∀ n, ¬ EndsInput ((Cursor.ofText s).after n).scan.1 → segment n ≠ []
  /-- The end of the input is found in time, and again by every later scan. -/
  ends : ∃ k ≤ s.length, (∀ n < k, ¬ EndsInput ((Cursor.ofText s).after n).scan.1) ∧
    ∀ n, k ≤ n → (List.range (n + 1)).flatMap segment = s ∧
      ((Cursor.ofText s).after n).scan.1 = .ok ⟨⟨.endOfInput, ""⟩, .behind s⟩
  /-- The position is that behind the text taken. -/
  position : ∀ n, ((Cursor.ofText s).after n).position = .behind ((List.range n).flatMap segment)
  /-- The current line is shown as far as it has been taken. -/
  currentLine : ∀ n, ((Cursor.ofText s).after n).passed.lineText
    ((Cursor.ofText s).after n).position.line =
      String.ofList (lastLine ((List.range n).flatMap segment))
  /-- An earlier line is shown without the carriage returns at its end. -/
  earlierLine : ∀ n i, 1 ≤ i → i < ((Cursor.ofText s).after n).position.line →
    ∃ line, (physicalLines s)[(i - 1).toNat]? = some line ∧
      ((Cursor.ofText s).after n).passed.lineText i = String.ofList (chomp line)
  /-- Other lines are shown empty. -/
  otherLine : ∀ n i, i < 1 ∨ ((Cursor.ofText s).after n).position.line < i →
    ((Cursor.ofText s).after n).passed.lineText i = ""

/-- **Scanning loses nothing and comes to an end.** Any number of scans of a source, also after
diagnostics, take the source from its front in segments that their results account for, and the
positions and lines reported at any time are those of the text taken. -/
theorem scan_lossless (s : List Char) : ∃ segment, ScansThrough s segment := by
  refine ⟨fun n => ((Cursor.ofText s).after n).taken, ?_⟩
  have hahead (n : Nat) := ((Cursor.ofText s).after_eq n).1
  have hpassed (n : Nat) := ((Cursor.ofText s).after_eq n).2
  have htakes (n : Nat) := Cursor.takes_scan (hpassed n)
  have hposition (n : Nat) :
      ((Cursor.ofText s).after n).position = .behind ((Cursor.ofText s).takenIn n) := by
    rw [Cursor.position, hpassed]
    exact Passed.position_passAll _
  refine
    { lossless := hahead
      takes := htakes
      progress := fun n hend => (htakes n).ne_nil hend
      ends := ?_
      position := hposition
      currentLine := ?_
      earlierLine := ?_
      otherLine := fun n i hi => Passed.lineText_of_outside hi }
  · obtain ⟨k, hk, hfound, hbefore⟩ := (Cursor.ofText s).exists_endsInput
    refine ⟨k, hk, hbefore, ?_⟩
    intro n hn
    obtain ⟨hend, hnil⟩ := Cursor.endsInput_after hfound n hn
    have hall : (Cursor.ofText s).takenIn (n + 1) = s := by
      have hsplit := hahead (n + 1)
      rw [hnil, List.append_nil] at hsplit
      exact hsplit.symm
    have hresult := (htakes n).endsInput hend
    rw [← Cursor.takenIn_succ, hall] at hresult
    exact ⟨hall, hresult⟩
  · intro n
    show ((Cursor.ofText s).after n).passed.lineText
      ((Cursor.ofText s).after n).passed.lineNumber = _
    rw [Passed.lineText_self, hpassed]
    exact Passed.currentLine_passAll _
  · intro n i hfirst hlast
    have hholds : ((Cursor.ofText s).after n).passed.Holds ((Cursor.ofText s).takenIn n) := by
      rw [hpassed]
      exact Passed.holds_passAll _
    have hlast' : i < ((Cursor.ofText s).after n).passed.lineNumber := hlast
    obtain ⟨line, hline, htext⟩ := hholds.lineText_finished ((Cursor.ofText s).after n).ahead
      (n := (i - 1).toNat) (by omega)
    refine ⟨line, ?_, ?_⟩
    · rwa [← hahead n] at hline
    · rwa [show (((i - 1).toNat + 1 : Nat) : Int) = i by omega] at htext

end Calculator
