import Calculator.Proofs.Evaluation.Located
import Calculator.Proofs.Source.Items
import Calculator.Proofs.Source.Lines
import Calculator.Vocabulary

/-!
# Diagnostics point at their cause

The line of a diagnostic is the beginning of the physical line of the source that its position
names, and its column is that of the character or token at fault (`Diagnostic.Points`,
`evaluateSupply_points`), however far the scan has come since. Its text shows the line with a caret
below that column.
-/

set_option autoImplicit false

namespace Calculator

variable {V : Type}

/-- The text shown for a position is the beginning of the line of the source that the position
names. -/
def Shows (s : List Char) (p : Position) (shown : List Char) : Prop :=
  1 ≤ p.line ∧ '\n' ∉ shown ∧
    ∃ line, (physicalLines s)[(p.line - 1).toNat]? = some line ∧ shown <+: line

/-- A diagnostic on the source `s` points at what it is about. -/
structure Diagnostic.Points (diag : Diagnostic) (s : List Char) : Prop where
  /-- The line shown is from the source. -/
  shows : Shows s diag.position diag.line.toList
  /-- Columns are counted from one. -/
  column : 1 ≤ diag.position.column
  /-- The line shown by the scan ends with the character that it has failed at. -/
  offender : diag.stage = .scan → ∃ c ts cause before offender,
    Delivers (.ofText s) ts c ∧ (read c.ahead).item = .fault cause before offender ∧
      diag.line.toList.getLast? = some offender ∧
      (diag.line.toList.length : Int) = diag.position.column
  /-- The token at fault stands at the column. -/
  token : ∀ t, diag.stage.token? = some t → t.text ≠ "" →
    (diag.line.toList.drop (diag.position.column - 1).toNat).take t.text.toList.length =
      t.text.toList
  /-- The end of the input is behind the line. -/
  atEnd : ∀ t, diag.stage = .parse t → t.kind = .endOfInput →
    diag.position.column = diag.line.toList.length + 1

/-! ## The line shown -/

/-- Text before a cursor of the source has been passed from its start. -/
theorem Cursor.Reaches.split {s : List Char} {c : Cursor} (h : (ofText s).Reaches c) :
    ∃ t, s = t ++ c.ahead ∧ c.passed = Passed.start.passAll t := h

/-- The text of a line that a cursor has come to is from the source. -/
theorem shows_lineText {s : List Char} {c : Cursor} {p : Position} (h : (Cursor.ofText s).Reaches c)
    (hfirst : 1 ≤ p.line) (hlast : p.line ≤ c.passed.lineNumber) :
    Shows s p (c.passed.lineText p.line).toList := by
  obtain ⟨t, rfl, hpassed⟩ := h.split
  rw [hpassed] at hlast ⊢
  have hline : (((p.line - 1).toNat + 1 : Nat) : Int) = p.line := by omega
  have hlt : (p.line - 1).toNat < (Passed.start.passAll t).lineNumber := by omega
  obtain ⟨line, hget, hfront⟩ := (Passed.holds_passAll t).lineText_isPrefix c.ahead hlt
  rw [hline] at hfront
  refine ⟨hfirst, ?_, line, hget, hfront⟩
  intro hmem
  exact newline_notMem_of_mem_physicalLines (List.mem_of_getElem? hget) (hfront.subset hmem)

theorem Passed.one_le_line (p : Passed) : 1 ≤ p.position.line := by
  have hnumber := p.lineNumber_eq
  simp only [Passed.position]
  omega

theorem Passed.one_le_column (p : Passed) : 1 ≤ p.position.column := by
  have hcolumn := p.column_eq
  simp only [Passed.position]
  omega

section Tokens

variable {s : List Char} {lexemes site : List Lexeme} {token : Token} {passed : Passed}

theorem Stands.position (h : Stands (.ofText s) lexemes site token passed) :
    1 ≤ token.position.line ∧ 1 ≤ token.position.column := by
  obtain ⟨ts, c₁, c₂, -, -, hscan, hline, -⟩ := h
  obtain ⟨hposition, -⟩ := Cursor.token_of_scan hscan hline
  rw [hposition]
  exact ⟨Passed.one_le_line _, Passed.one_le_column _⟩

/-- The line shown for a token is its line in the source. -/
theorem Stands.shows (h : Stands (.ofText s) lexemes site token passed) :
    Shows s token.position (passed.lineText token.position.line).toList := by
  have hfirst := h.position.1
  obtain ⟨ts, c₁, c₂, -, hdel, hscan, hline, -, hreach, rfl⟩ := h
  obtain ⟨hposition, -⟩ := Cursor.token_of_scan hscan hline
  apply shows_lineText (hdel.reaches.trans ((Cursor.reaches_scan c₁).trans hreach)) hfirst
  obtain ⟨t, -, hpassed⟩ := hreach
  -- the line of the token had been reached when it was scanned
  have hle := Nat.le_trans
    (Passed.lineNumber_le_passAll (read c₁.ahead).item.chars c₁.atItem.passed)
    (Passed.lineNumber_le_passAll t c₁.scan.2.passed)
  rw [hposition, hpassed]
  exact Int.ofNat_le.2 hle

/-- The line shown for a token has the text of the token at its column. -/
theorem Stands.text (h : Stands (.ofText s) lexemes site token passed) (htext : token.text ≠ "") :
    ((passed.lineText token.position.line).toList.drop (token.position.column - 1).toNat).take
      token.text.toList.length = token.text.toList := by
  obtain ⟨ts, c₁, c₂, -, -, hscan, hline, -, ⟨t, -, hpassed⟩, rfl⟩ := h
  obtain ⟨hposition, ⟨-, -, hempty⟩ | ⟨kind, text, hitem, -, htoken⟩⟩ :=
    Cursor.token_of_scan hscan hline
  · exact absurd hempty htext
  obtain ⟨hne, hcharacters⟩ := lexeme_characters hitem
  have hnewline : '\n' ∉ text := fun hmem => (hcharacters _ hmem).1 rfl
  -- the text has been passed on the line where it starts
  obtain ⟨hcurrent, hlines⟩ := Passed.passAll_of_notMem (p := c₁.atItem.passed) hnewline
  have hscanned : c₁.scan.2.passed = c₁.atItem.passed.passAll text := by
    rw [Cursor.passed_scan, hitem]
    rfl
  have hnumber : token.position.line = c₁.scan.2.passed.lineNumber := by
    rw [hposition, hscanned, Passed.lineNumber_eq, hlines, ← Passed.lineNumber_eq]
    rfl
  have hfront : c₁.atItem.passed.current.reverse ++ text <+: c₁.scan.2.passed.current.reverse := by
    refine ⟨[], ?_⟩
    rw [hscanned, hcurrent, List.reverse_append, List.reverse_reverse, List.append_nil]
  have hreturn : ∀ c ∈ (c₁.atItem.passed.current.reverse ++ text).getLast?, c ≠ '\r' := by
    intro c hc
    rw [List.getLast?_append, List.getLast?_eq_some_getLast hne] at hc
    obtain rfl := Option.some.inj hc
    exact (hcharacters _ (List.getLast_mem hne)).2
  obtain ⟨rest, hrest⟩ := Passed.isPrefix_lineText_passAll hreturn t hfront
  have hcolumn : (token.position.column - 1).toNat =
      c₁.atItem.passed.current.reverse.length := by
    rw [hposition, List.length_reverse]
    have hcolumn := c₁.atItem.passed.column_eq
    simp only [Passed.position]
    omega
  rw [hpassed, hnumber, ← hrest, hcolumn, htoken, List.append_assoc, List.drop_left,
    List.take_left]

/-- The line shown for the end of the input is all of the last line. -/
theorem Stands.atEnd (h : Stands (.ofText s) lexemes site token passed)
    (hinput : token.kind = .endOfInput) :
    token.position.column = (passed.lineText token.position.line).toList.length + 1 := by
  obtain ⟨ts, c₁, c₂, -, -, hscan, hline, -, ⟨t, hahead, hpassed⟩, rfl⟩ := h
  obtain ⟨hposition, ⟨hitem, -, -⟩ | ⟨kind, text, hitem, hkind, -⟩⟩ :=
    Cursor.token_of_scan hscan hline
  · -- nothing is left to be passed
    have hrest : c₁.scan.2.ahead = [] := rest_of_finished hitem
    rw [hrest] at hahead
    obtain ⟨rfl, -⟩ := List.append_eq_nil_iff.1 hahead.symm
    have hsame : c₂.passed = c₁.atItem.passed := by
      rw [hpassed, Cursor.passed_scan, hitem]
      rfl
    rw [hsame, hposition]
    have hcolumn := c₁.atItem.passed.column_eq
    simp only [Passed.position, Passed.lineText_self, Passed.currentLine, String.toList_ofList,
      List.length_reverse]
    omega
  · exact absurd (hkind.symm.trans hinput) (lexeme_ne_endOfInput hitem)

end Tokens

/-! ## The text of a diagnostic -/

theorem newline_notMem_toString_nat (n : Nat) : '\n' ∉ (toString n).toList := by
  intro h
  have h' : '\n' ∈ Nat.toDigits 10 n := by simpa [Nat.repr] using h
  exact absurd (Nat.isDigit_of_mem_toDigits (by decide) (by decide) h') (by decide)

theorem newline_notMem_toString_int (n : Int) : '\n' ∉ (toString n).toList := by
  cases n with
  | ofNat n => exact newline_notMem_toString_nat n
  | negSucc n =>
      intro h
      have hrepr : toString (Int.negSucc n) = "-" ++ toString (n + 1) := rfl
      rw [hrepr, String.toList_append] at h
      rcases List.mem_append.1 h with h | h
      · exact absurd h (by decide)
      · exact newline_notMem_toString_nat _ h

theorem Position.newline_notMem_render (p : Position) : '\n' ∉ p.render.toList := by
  have hline := newline_notMem_toString_int p.line
  have hcolumn := newline_notMem_toString_int p.column
  have hcolon : '\n' ∉ " : ".toList := by decide
  have hrender : p.render = toString p.line ++ " : " ++ toString p.column := rfl
  simp only [hrender, String.toList_append, List.mem_append, hline, hcolumn, hcolon, or_self,
    not_false_eq_true]

namespace Diagnostic

/-- The first line of the text of a diagnostic. -/
def headline (d : Diagnostic) : String := s!"Unexpected {d.unexpected} at line {d.position.render}"

/-- The line about what would have been valid, unless that is absent or empty. -/
def expectation (d : Diagnostic) : List (List Char) :=
  match d.expected with
  | none => []
  | some e => if e.isEmpty then [] else [("Expected " ++ e).toList]

theorem toList_message (d : Diagnostic) :
    d.message.toList = d.headline.toList ++ '\n' :: (d.line.toList ++ '\n' ::
      (List.replicate (d.position.column - 1).toNat '-' ++ '^' ::
        d.expectation.flatMap ('\n' :: ·))) := by
  have hhead : (s!"Unexpected {d.unexpected} at line {d.position.render}\n" ++
      caret d.line d.position.column).toList =
      d.headline.toList ++ '\n' :: (d.line.toList ++ '\n' ::
        (List.replicate (d.position.column - 1).toNat '-' ++ ['^'])) := by
    have hnewline : "\n".toList = ['\n'] := rfl
    have hcaret : "^".toList = ['^'] := rfl
    simp only [caret, headline, String.toList_append, String.toList_ofList, hnewline, hcaret,
      List.append_assoc, List.cons_append, List.nil_append, toString]
  have hexpected (e : String) :
      ("\nExpected " ++ e).toList = '\n' :: ("Expected " ++ e).toList := by
    simp only [String.toList_append]
    rfl
  unfold message render expectation
  cases d.expected with
  | none => simp only [hhead, List.flatMap_nil]
  | some e =>
      dsimp only
      split
      · simp only [hhead, List.flatMap_nil]
      · rw [String.append_assoc, String.toList_append, hhead, hexpected]
        simp

/-- The lines of the text of a diagnostic: the headline, the line shown, a caret below the column,
and what would have been valid, where that is known. -/
theorem physicalLines_message {d : Diagnostic} (hunexpected : '\n' ∉ d.unexpected.toList)
    (hexpected : ∀ e ∈ d.expected, '\n' ∉ e.toList) (hline : '\n' ∉ d.line.toList) :
    physicalLines d.message.toList =
      [d.headline.toList, d.line.toList,
        List.replicate (d.position.column - 1).toNat '-' ++ ['^']] ++ d.expectation := by
  have hheadline : '\n' ∉ d.headline.toList := by
    have hhead : '\n' ∉ "Unexpected ".toList := by decide
    have hat : '\n' ∉ " at line ".toList := by decide
    have hposition := d.position.newline_notMem_render
    have hparts : d.headline =
        "Unexpected " ++ d.unexpected ++ " at line " ++ d.position.render := rfl
    simp only [hparts, String.toList_append, List.mem_append, hhead, hunexpected, hat, hposition,
      or_self, not_false_eq_true]
  have hcaret : '\n' ∉ List.replicate (d.position.column - 1).toNat '-' ++ ['^'] := by
    intro h
    rcases List.mem_append.1 h with h | h
    · exact absurd (List.eq_of_mem_replicate h) (by decide)
    · exact absurd (List.mem_singleton.1 h) (by decide)
  have hlast : physicalLines (List.replicate (d.position.column - 1).toNat '-' ++ '^' ::
      d.expectation.flatMap ('\n' :: ·)) =
      (List.replicate (d.position.column - 1).toNat '-' ++ ['^']) :: d.expectation := by
    unfold expectation physicalLines
    cases he : d.expected with
    | none => exact List.splitOn_eq_singleton hcaret
    | some e =>
        dsimp only
        split
        · exact List.splitOn_eq_singleton hcaret
        · have hword : '\n' ∉ "Expected ".toList := by decide
          have htext : '\n' ∉ ("Expected " ++ e).toList := by
            simp only [String.toList_append, List.mem_append, hword, hexpected e he, or_self,
              not_false_eq_true]
          rw [List.flatMap_singleton, List.append_cons,
            List.splitOn_append_cons_self_of_not_mem hcaret, List.splitOn_eq_singleton htext]
  -- the line feeds behind the headline and the line shown are the first ones
  rw [toList_message, physicalLines, List.splitOn_append_cons_self_of_not_mem hheadline,
    List.splitOn_append_cons_self_of_not_mem hline]
  exact congrArg (d.headline.toList :: d.line.toList :: ·) hlast

end Diagnostic

/-! ## Diagnostics of an evaluation -/

/-- A diagnostic of the scan points at the character that has caused it. -/
theorem points_of_scan {s : List Char} {ts : List Token} {c : Cursor} {diag : Diagnostic}
    (hdel : Delivers (.ofText s) ts c) (hscan : c.scan.1 = .error diag) : diag.Points s := by
  have hreach := hdel.reaches.trans (Cursor.reaches_scan c)
  have hpassed := c.passed_scan
  simp only [Cursor.scan, Cursor.report] at hscan
  split at hscan
  · cases hscan
  · cases hscan
  · cases hscan
  · rename_i cause before offender hitem
    obtain rfl := Except.error.inj hscan
    have hnewline := offender_ne_newline hitem
    -- the cursor behind the scan stands behind the character on the same line
    obtain ⟨p, hp⟩ : ∃ p, p = c.atItem.passed.passAll before := ⟨_, rfl⟩
    have hbehind : c.scan.2.passed = p.pass offender := by
      rw [hpassed, hitem, hp]
      exact Passed.passAll_append _ before [offender]
    have hpass : (p.pass offender).current = offender :: p.current ∧
        (p.pass offender).lineNumber = p.lineNumber := by
      simp [Passed.pass, hnewline]
    have hline : (p.pass offender).currentLine.toList = p.current.reverse ++ [offender] := by
      rw [Passed.currentLine, hpass.1, String.toList_ofList, List.reverse_cons]
    have hshows : Shows s p.position (p.pass offender).currentLine.toList := by
      have hlast : p.position.line ≤ c.scan.2.passed.lineNumber := by
        rw [hbehind, hpass.2]
        exact Int.le_refl _
      have hshows := shows_lineText hreach p.one_le_line hlast
      rw [hbehind] at hshows
      rwa [show p.position.line = (p.pass offender).lineNumber from congrArg Int.ofNat hpass.2.symm,
        Passed.lineText_self] at hshows
    have hcolumn := p.column_eq
    subst hp
    exact
      { shows := hshows
        column := Passed.one_le_column _
        offender := fun _ => by
          refine ⟨c, ts, cause, before, offender, hdel, hitem, ?_, ?_⟩
          · exact (congrArg List.getLast? hline).trans (by simp)
          · apply (congrArg (fun l => (List.length l : Int)) hline).trans
            simp only [List.length_append, List.length_reverse, List.length_singleton]
            exact congrArg Int.ofNat hcolumn.symm
        token := fun t ht => by cases ht
        atEnd := fun t ht => by cases ht }

/-- **Diagnostics point at their cause**, and their text shows it: whatever is evaluated in
whatever domain, the line of a diagnostic is the beginning of the line of the source that the
position names, and the column is that of the character or token at fault. -/
theorem evaluateSupply_points (d : Domain V) (limit : DepthLimit) (s : Supply) (diag : Diagnostic)
    (h : evaluateSupply d limit s = .error (.diagnosed diag)) :
    diag.Points s.text ∧
      ('\n' ∉ diag.unexpected.toList → (∀ e ∈ diag.expected, '\n' ∉ e.toList) →
        physicalLines diag.message.toList =
          [diag.headline.toList, diag.line.toList,
            List.replicate (diag.position.column - 1).toNat '-' ++ ['^']] ++
            diag.expectation) := by
  have hpoints : diag.Points s.text := by
    cases evaluateSupply_diagnosed h with
    | scan _ hdel hscan => exact points_of_scan hdel hscan
    | misplaced _ hstands =>
        exact
          { shows := hstands.shows
            column := hstands.position.2
            offender := fun hstage => by cases hstage
            token := fun t ht htext => by
              obtain rfl := Option.some.inj ht
              exact hstands.text htext
            atEnd := fun t ht hinput => by
              obtain rfl := Stage.parse.inj ht
              exact hstands.atEnd hinput }
    | step _ _ hstands =>
        exact
          { shows := hstands.shows
            column := hstands.position.2
            offender := fun hstage => by cases hstage
            token := fun t ht htext => by
              obtain rfl := Option.some.inj ht
              exact hstands.text htext
            atEnd := fun t ht => by cases ht }
  refine ⟨hpoints, ?_⟩
  intro hunexpected hexpected
  exact Diagnostic.physicalLines_message hunexpected hexpected hpoints.shows.2.1

set_option maxRecDepth 10000 in
/-- The name `x` is unknown, which is found at the end of the input, on the next line. -/
theorem evaluateSupply_unknownName :
    evaluateSupply Vocabulary.standard.domain .standard (.ofText ['x', '\r', '\n']) =
      .error (.diagnosed (.ofParse ⟨⟨.identifier, "x"⟩, ⟨1, 1⟩⟩ "x"
        (some ((Expectation.constant "x").text 100)))) := by
  have htranscript : Transcript.ofSupply (.ofText ['x', '\r', '\n']) =
      ⟨[⟨⟨⟨.identifier, "x"⟩, ⟨1, 1⟩⟩, Passed.start.passAll ['x']⟩],
        .ok ⟨⟨⟨.endOfInput, ""⟩, ⟨2, 1⟩⟩, Passed.start.passAll ['x', '\r', '\n']⟩⟩ := by
    show Transcript.ofResults (Cursor.ofText ['x', '\r', '\n']).results = _
    rw [Cursor.results_of_token rfl (by decide), Cursor.results_of_token rfl (by decide),
      Cursor.results_of_endOfInput rfl rfl]
    rfl
  rw [evaluateSupply]
  rw [htranscript]
  rfl

/-- The diagnostic points at the name on the finished line. -/
theorem points_unknownName :
    (Diagnostic.ofParse ⟨⟨.identifier, "x"⟩, ⟨1, 1⟩⟩ "x"
      (some ((Expectation.constant "x").text 100))).Points ['x', '\r', '\n'] :=
  (evaluateSupply_points _ _ _ _ evaluateSupply_unknownName).1

end Calculator
