import Calculator.Source.Transcript

/-!
# What the scan delivers

`Delivers c ts c'` says that scanning on from the cursor `c` yields the tokens `ts`, ends of lines
left out, and comes to the cursor `c'`; `Scanned s ts` says that `ts` are the tokens of the whole
source `s`. A transcript is faithful (`Transcribes`) if its entries are the tokens that are
delivered and it ends where the input ends, at the diagnostic of the scan, or at a failure of the
supply. The transcript of every supply is faithful to its text (`transcribes_ofSupply`), and every
entry of a faithful transcript stands where its token was scanned (`Transcribes.entry`,
`Transcribes.finished_behind`, `Transcribes.stopped_behind`).
-/

set_option autoImplicit false

namespace Calculator

/-! ## Passing text -/

theorem Passed.passAll_append (p : Passed) (s t : List Char) :
    p.passAll (s ++ t) = (p.passAll s).passAll t :=
  List.foldl_append

/-- The second cursor stands behind the first one in the same text. -/
def Cursor.Reaches (c c' : Cursor) : Prop :=
  ∃ s, c.ahead = s ++ c'.ahead ∧ c'.passed = c.passed.passAll s

theorem Cursor.Reaches.refl (c : Cursor) : c.Reaches c := ⟨[], rfl, rfl⟩

theorem Cursor.Reaches.trans {c₁ c₂ c₃ : Cursor} (h₁ : c₁.Reaches c₂) (h₂ : c₂.Reaches c₃) :
    c₁.Reaches c₃ := by
  obtain ⟨s, hahead, hpassed⟩ := h₁
  obtain ⟨t, hahead', hpassed'⟩ := h₂
  refine ⟨s ++ t, ?_, ?_⟩
  · rw [hahead, hahead', List.append_assoc]
  · rw [hpassed', hpassed, Passed.passAll_append]

/-- A scan passes the blanks and the item that it has read. -/
theorem Cursor.reaches_scan (c : Cursor) : c.Reaches c.scan.2 := by
  refine ⟨(read c.ahead).blanks ++ (read c.ahead).item.chars, ?_, ?_⟩
  · rw [List.append_assoc]
    exact (read_append c.ahead).symm
  · rw [Passed.passAll_append]
    rfl

/-! ## What a scan reads -/

/-- The cursor behind the blanks of the next reading. -/
def Cursor.atItem (c : Cursor) : Cursor :=
  ⟨c.passed.passAll (read c.ahead).blanks, (read c.ahead).item.chars ++ (read c.ahead).rest⟩

theorem Cursor.passed_scan (c : Cursor) :
    c.scan.2.passed = c.atItem.passed.passAll (read c.ahead).item.chars := rfl

/-- A token within a line stands where its reading starts, and has the characters of the item. -/
theorem Cursor.token_of_scan {c : Cursor} {token : Token} (h : c.scan.1 = .ok token)
    (hline : token.kind ≠ .endOfLine) :
    token.position = c.atItem.passed.position ∧
      ((read c.ahead).item = .finished ∧ token.kind = .endOfInput ∧ token.text = "" ∨
        ∃ kind text, (read c.ahead).item = .lexeme kind text ∧ token.kind = kind ∧
          token.text.toList = text) := by
  simp only [scan, report] at h
  split at h
  · rename_i hitem
    obtain rfl := Except.ok.inj h
    exact ⟨rfl, Or.inl ⟨hitem, rfl, rfl⟩⟩
  · obtain rfl := Except.ok.inj h
    exact absurd rfl hline
  · rename_i kind text hitem
    obtain rfl := Except.ok.inj h
    exact ⟨rfl, Or.inr ⟨kind, text, hitem, rfl, String.toList_ofList⟩⟩
  · cases h

/-- A diagnostic of the scan has the stage of the scan. -/
theorem Cursor.stage_of_scan {c : Cursor} {diag : Diagnostic} (h : c.scan.1 = .error diag) :
    diag.stage = .scan := by
  simp only [scan, report] at h
  split at h
  · cases h
  · cases h
  · cases h
  · obtain rfl := Except.error.inj h
    rfl

/-! ## Deliveries -/

/-- Scanning from the first cursor to the second yields the tokens, ends of lines left out. The end
of the input is not among them. -/
inductive Delivers : Cursor → List Token → Cursor → Prop where
  | done {c} : Delivers c [] c
  | lineEnd {c t ts c'} : c.scan.1 = .ok t → t.kind = .endOfLine → Delivers c.scan.2 ts c' →
      Delivers c ts c'
  | token {c t ts c'} : c.scan.1 = .ok t → t.kind ≠ .endOfLine → t.kind ≠ .endOfInput →
      Delivers c.scan.2 ts c' → Delivers c (t :: ts) c'

/-- The tokens of a source up to the end of the input, ends of lines left out. -/
def Scanned (s : List Char) (ts : List Token) : Prop :=
  ∃ c eoi, Delivers (.ofText s) ts c ∧ c.scan.1 = .ok eoi ∧ eoi.kind = .endOfInput

theorem Delivers.reaches {c c' : Cursor} {ts : List Token} (h : Delivers c ts c') :
    c.Reaches c' := by
  induction h with
  | done => exact .refl _
  | lineEnd _ _ _ ih => exact (Cursor.reaches_scan _).trans ih
  | token _ _ _ _ ih => exact (Cursor.reaches_scan _).trans ih

/-- Every token delivered has been scanned. -/
theorem Delivers.scanned {c c' : Cursor} {ts : List Token} (h : Delivers c ts c') :
    ∀ t ∈ ts, ∃ c₁ : Cursor, c₁.scan.1 = .ok t ∧ t.kind ≠ .endOfLine := by
  induction h with
  | done => exact fun t ht => by cases ht
  | lineEnd _ _ _ ih => exact ih
  | @token c t' ts c' hscan hline _ _ ih =>
      intro t ht
      rcases List.mem_cons.1 ht with rfl | ht
      · exact ⟨c, hscan, hline⟩
      · exact ih t ht

/-- What holds at a cursor if it holds behind every token before the end of the input holds at
every cursor. -/
theorem Cursor.scan_induction {P : Cursor → Prop}
    (step : ∀ c, (∀ t, c.scan.1 = .ok t → t.kind ≠ .endOfInput → P c.scan.2) → P c) :
    ∀ c, P c := by
  intro c
  apply step c
  intro t ht hkind
  have hlt : c.scan.2.ahead.length < c.ahead.length :=
    length_ahead_scan_lt (by simpa [ht, goesOn] using hkind)
  exact Cursor.scan_induction step c.scan.2
termination_by c => c.ahead.length

/-! ## Faithful transcripts -/

/-- The transcript is faithful to what the scan delivers from the cursor on. -/
inductive Transcribes : Cursor → Transcript → Prop where
  | finished {c t} : c.scan.1 = .ok t → t.kind = .endOfInput →
      Transcribes c ⟨[], .ok ⟨t, c.scan.2.passed⟩⟩
  | stopped {c e} : c.scan.1 = .error e → Transcribes c ⟨[], .error (.diagnosed e)⟩
  | failed {c} (cause : Failure) : Transcribes c ⟨[], .error (.escaped cause)⟩
  | lineEnd {c t tail} : c.scan.1 = .ok t → t.kind = .endOfLine → Transcribes c.scan.2 tail →
      Transcribes c tail
  | token {c t tail} : c.scan.1 = .ok t → t.kind ≠ .endOfLine → t.kind ≠ .endOfInput →
      Transcribes c.scan.2 tail →
      Transcribes c ⟨⟨t, c.scan.2.passed⟩ :: tail.entries, tail.ending⟩

namespace Cursor

theorem results_of_token {c : Cursor} {t : Token} (h : c.scan.1 = .ok t)
    (hkind : t.kind ≠ .endOfInput) : c.results = c.scan :: c.scan.2.results := by
  rw [results, dif_pos (by simpa [h, goesOn] using hkind)]

theorem results_of_endOfInput {c : Cursor} {t : Token} (h : c.scan.1 = .ok t)
    (hkind : t.kind = .endOfInput) : c.results = [c.scan] := by
  rw [results, dif_neg (by simp [h, goesOn, hkind])]

theorem results_of_error {c : Cursor} {e : Diagnostic} (h : c.scan.1 = .error e) :
    c.results = [c.scan] := by
  rw [results, dif_neg (by simp [h, goesOn])]

end Cursor

namespace Transcript

theorem ofResults_endOfInput {r : Except Diagnostic Token × Cursor} {t : Token}
    {rest : List (Except Diagnostic Token × Cursor)} (h : r.1 = .ok t)
    (hkind : t.kind = .endOfInput) : ofResults (r :: rest) = ⟨[], .ok ⟨t, r.2.passed⟩⟩ := by
  rcases r with ⟨x, c⟩
  subst h
  simp only [ofResults, if_pos hkind]

theorem ofResults_error {r : Except Diagnostic Token × Cursor} {e : Diagnostic}
    {rest : List (Except Diagnostic Token × Cursor)} (h : r.1 = .error e) :
    ofResults (r :: rest) = ⟨[], .error (.diagnosed e)⟩ := by
  rcases r with ⟨x, c⟩
  subst h
  rfl

theorem ofResults_lineEnd {r : Except Diagnostic Token × Cursor} {t : Token}
    {rest : List (Except Diagnostic Token × Cursor)} (h : r.1 = .ok t)
    (hkind : t.kind = .endOfLine) : ofResults (r :: rest) = ofResults rest := by
  rcases r with ⟨x, c⟩
  subst h
  have hinput : t.kind ≠ .endOfInput := by simp [hkind]
  simp only [ofResults, if_neg hinput, if_pos hkind]

theorem ofResults_token {r : Except Diagnostic Token × Cursor} {t : Token}
    {rest : List (Except Diagnostic Token × Cursor)} (h : r.1 = .ok t)
    (hline : t.kind ≠ .endOfLine) (hinput : t.kind ≠ .endOfInput) :
    ofResults (r :: rest) =
      ⟨⟨t, r.2.passed⟩ :: (ofResults rest).entries, (ofResults rest).ending⟩ := by
  rcases r with ⟨x, c⟩
  subst h
  simp only [ofResults, if_neg hinput, if_neg hline]

end Transcript

open Transcript

/-- Results of scanning end in no failure of a supply. -/
theorem ofResults_ending_ne_escaped {cause : Failure} :
    ∀ results : List (Except Diagnostic Token × Cursor),
      (ofResults results).ending ≠ .error (.escaped cause) := by
  intro results
  induction results with
  | nil => exact fun h => by cases h
  | cons r rest ih =>
      cases h : r.1 with
      | error e =>
          rw [ofResults_error h]
          exact fun h => by cases h
      | ok t =>
          by_cases hinput : t.kind = .endOfInput
          · rw [ofResults_endOfInput h hinput]
            exact fun h => by cases h
          · by_cases hline : t.kind = .endOfLine
            · rw [ofResults_lineEnd h hline]
              exact ih
            · rw [ofResults_token h hline hinput]
              exact ih

/-- A failure in which the transcript of a supply ends is that of the supply. -/
theorem ofSupply_ending_escaped {s : Supply} {cause : Failure}
    (h : (ofSupply s).ending = .error (.escaped cause)) : s.failure? = some cause := by
  rw [ofSupply] at h
  cases hfailure : s.failure? with
  | none =>
      rw [hfailure] at h
      exact absurd h (ofResults_ending_ne_escaped _)
  | some found =>
      rw [hfailure] at h
      dsimp only at h
      split at h
      · exact absurd h (ofResults_ending_ne_escaped _)
      · cases h
        rfl

/-- The first results of scanning have the first entries. -/
theorem ofResults_prefix_entries {front results : List (Except Diagnostic Token × Cursor)}
    (h : front <+: results) : (ofResults front).entries <+: (ofResults results).entries := by
  obtain ⟨rest, rfl⟩ := h
  induction front with
  | nil => exact List.nil_prefix
  | cons r front ih =>
      rw [List.cons_append]
      cases h : r.1 with
      | error e =>
          have hnone : (ofResults (r :: front)).entries = [] := by rw [ofResults_error h]
          exact hnone ▸ List.nil_prefix
      | ok t =>
          by_cases hinput : t.kind = .endOfInput
          · have hnone : (ofResults (r :: front)).entries = [] := by
              rw [ofResults_endOfInput h hinput]
            exact hnone ▸ List.nil_prefix
          · by_cases hline : t.kind = .endOfLine
            · rw [ofResults_lineEnd h hline, ofResults_lineEnd h hline]
              exact ih
            · rw [ofResults_token h hline hinput, ofResults_token h hline hinput]
              exact (List.prefix_cons_inj _).2 ih

/-- What is known of a supply is the first part of its text. -/
theorem ofSupply_prefix_entries (s : Supply) :
    (ofSupply s).entries <+: (ofText s.text).entries := by
  rw [ofSupply]
  cases s.failure? with
  | none => exact List.prefix_rfl
  | some cause =>
      dsimp only
      split
      · exact List.prefix_rfl
      · apply ofResults_prefix_entries
        exact List.takeWhile_prefix _

theorem ofSupply_lexemes_subset (s : Supply) :
    (ofSupply s).lexemes ⊆ (ofText s.text).lexemes :=
  List.map_subset _ (ofSupply_prefix_entries s).subset

/-- A supply either has the transcript of its text or one that ends in its failure. -/
theorem ofSupply_cases (s : Supply) :
    ofSupply s = ofText s.text ∨ ∃ cause, (ofSupply s).ending = .error (.escaped cause) := by
  rw [ofSupply]
  cases s.failure? with
  | none => exact .inl rfl
  | some cause =>
      dsimp only
      split
      · exact .inl rfl
      · exact .inr ⟨cause, rfl⟩

/-- The transcript of all results is faithful. -/
theorem transcribes_ofResults (c : Cursor) : Transcribes c (ofResults c.results) := by
  induction c using Cursor.scan_induction with
  | step c ih =>
      cases h : c.scan.1 with
      | error e =>
          rw [Cursor.results_of_error h, ofResults_error h]
          exact .stopped h
      | ok t =>
          by_cases hinput : t.kind = .endOfInput
          · rw [Cursor.results_of_endOfInput h hinput, ofResults_endOfInput h hinput]
            exact .finished h hinput
          · have htail := ih t h hinput
            rw [Cursor.results_of_token h hinput]
            by_cases hline : t.kind = .endOfLine
            · rw [ofResults_lineEnd h hline]
              exact .lineEnd h hline htail
            · rw [ofResults_token h hline hinput]
              exact .token h hline hinput htail

/-- The transcript of the first results is faithful if it ends in a failure of the supply. -/
theorem transcribes_takeWhile (p : Except Diagnostic Token × Cursor → Bool) (cause : Failure)
    (c : Cursor) :
    Transcribes c ⟨(ofResults (c.results.takeWhile p)).entries, .error (.escaped cause)⟩ := by
  have hnone : Transcribes c ⟨(ofResults []).entries, .error (.escaped cause)⟩ := .failed cause
  induction c using Cursor.scan_induction with
  | step c ih =>
      cases hp : p c.scan with
      | false =>
          -- the results are cut off here
          have hfirst : c.results.takeWhile p = [] := by
            rw [Cursor.results]
            split <;> simp [hp]
          rw [hfirst]
          exact hnone
      | true =>
          cases h : c.scan.1 with
          | error e =>
              rw [Cursor.results_of_error h, List.takeWhile_cons_of_pos hp, ofResults_error h]
              exact hnone
          | ok t =>
              by_cases hinput : t.kind = .endOfInput
              · rw [Cursor.results_of_endOfInput h hinput, List.takeWhile_cons_of_pos hp,
                  ofResults_endOfInput h hinput]
                exact hnone
              · have htail := ih t h hinput (.failed cause)
                rw [Cursor.results_of_token h hinput, List.takeWhile_cons_of_pos hp]
                by_cases hline : t.kind = .endOfLine
                · rw [ofResults_lineEnd h hline]
                  exact .lineEnd h hline htail
                · rw [ofResults_token h hline hinput]
                  exact .token h hline hinput htail

/-- **The transcript of a supply is faithful** to the text that is delivered. -/
theorem transcribes_ofSupply (s : Supply) : Transcribes (.ofText s.text) (ofSupply s) := by
  rw [ofSupply]
  cases s.failure? with
  | none => exact transcribes_ofResults _
  | some cause =>
      dsimp only
      split
      · exact transcribes_ofResults _
      · exact transcribes_takeWhile _ cause _

/-! ## Where entries stand -/

/-- How the scan ends at the cursor, or that a failure of the supply ends it before. -/
inductive Ends (c : Cursor) : Except Trouble Entry → Prop where
  | finished {t} : c.scan.1 = .ok t → t.kind = .endOfInput → Ends c (.ok ⟨t, c.scan.2.passed⟩)
  | stopped {e} : c.scan.1 = .error e → Ends c (.error (.diagnosed e))
  | failed (cause : Failure) : Ends c (.error (.escaped cause))

namespace Transcribes

/-- An entry stands where its token was scanned, behind the entries before it. -/
theorem entry {c : Cursor} {tr : Transcript} (h : Transcribes c tr) :
    ∀ {us vs : List Entry} {e : Entry}, tr.entries = us ++ e :: vs →
      ∃ c', Delivers c (us.map (·.token)) c' ∧ c'.scan.1 = .ok e.token ∧
        e.token.kind ≠ .endOfLine ∧ e.token.kind ≠ .endOfInput ∧ c'.scan.2.passed = e.passed ∧
        Transcribes c'.scan.2 ⟨vs, tr.ending⟩ := by
  induction h with
  | finished _ _ => intro us vs e h; simp at h
  | stopped _ => intro us vs e h; simp at h
  | failed _ => intro us vs e h; simp at h
  | lineEnd hscan hkind _ ih =>
      intro us vs e h
      obtain ⟨c', hdel, hrest⟩ := ih h
      exact ⟨c', .lineEnd hscan hkind hdel, hrest⟩
  | @token c t tail hscan hline hinput htail ih =>
      intro us vs e h
      cases us with
      | nil =>
          obtain ⟨rfl, rfl⟩ := List.cons.inj h
          exact ⟨c, .done, hscan, hline, hinput, rfl, htail⟩
      | cons u us =>
          obtain ⟨rfl, htl⟩ := List.cons.inj h
          obtain ⟨c', hdel, hrest⟩ := ih htl
          exact ⟨c', .token hscan hline hinput hdel, hrest⟩

/-- All entries are delivered, and behind them the scan ends as the transcript does. -/
theorem behind {c : Cursor} {tr : Transcript} (h : Transcribes c tr) :
    ∃ c', Delivers c (tr.entries.map (·.token)) c' ∧ Ends c' tr.ending := by
  induction h with
  | finished hscan hkind => exact ⟨_, .done, .finished hscan hkind⟩
  | stopped hscan => exact ⟨_, .done, .stopped hscan⟩
  | failed cause => exact ⟨_, .done, .failed cause⟩
  | lineEnd hscan hkind _ ih =>
      obtain ⟨c', hdel, hend⟩ := ih
      exact ⟨c', .lineEnd hscan hkind hdel, hend⟩
  | token hscan hline hinput _ ih =>
      obtain ⟨c', hdel, hend⟩ := ih
      exact ⟨c', .token hscan hline hinput hdel, hend⟩

/-- The end of the input is scanned behind all entries. -/
theorem finished_behind {c : Cursor} {tr : Transcript} {e : Entry} (h : Transcribes c tr)
    (he : tr.ending = .ok e) :
    ∃ c', Delivers c (tr.entries.map (·.token)) c' ∧ c'.scan.1 = .ok e.token ∧
      e.token.kind = .endOfInput ∧ c'.scan.2.passed = e.passed := by
  obtain ⟨c', hdel, hend⟩ := h.behind
  rw [he] at hend
  cases hend with
  | finished hscan hkind => exact ⟨c', hdel, hscan, hkind, rfl⟩

/-- A diagnostic that ends the entries is the scan's own, behind all entries. -/
theorem stopped_behind {c : Cursor} {tr : Transcript} {diag : Diagnostic} (h : Transcribes c tr)
    (he : tr.ending = .error (.diagnosed diag)) :
    ∃ c', Delivers c (tr.entries.map (·.token)) c' ∧ c'.scan.1 = .error diag := by
  obtain ⟨c', hdel, hend⟩ := h.behind
  rw [he] at hend
  cases hend with
  | stopped hscan => exact ⟨c', hdel, hscan⟩

end Transcribes

/-! ## Whole sources -/

/-- The tokens delivered are the first entries of the transcript, which goes on with what is scanned
behind them. -/
theorem Delivers.ofResults_append {c c' : Cursor} {ts : List Token} (h : Delivers c ts c') :
    (ofResults c.results).entries.map (·.token) =
        ts ++ (ofResults c'.results).entries.map (·.token) ∧
      (ofResults c.results).ending = (ofResults c'.results).ending := by
  induction h with
  | done => exact ⟨rfl, rfl⟩
  | lineEnd h hline _ ih =>
      rw [Cursor.results_of_token h (by simp [hline]), ofResults_lineEnd h hline]
      exact ih
  | token h hline hinput _ ih =>
      obtain ⟨htokens, hending⟩ := ih
      rw [Cursor.results_of_token h hinput, ofResults_token h hline hinput]
      exact ⟨by rw [List.map_cons, htokens, List.cons_append], hending⟩

/-- The tokens up to the end of the input are the entries of the transcript. -/
theorem Delivers.ofResults_eq {c c' : Cursor} {ts : List Token} {eoi : Token}
    (h : Delivers c ts c') (hscan : c'.scan.1 = .ok eoi) (hkind : eoi.kind = .endOfInput) :
    (ofResults c.results).entries.map (·.token) = ts ∧
      ∃ e, (ofResults c.results).ending = .ok e := by
  obtain ⟨htokens, hending⟩ := h.ofResults_append
  rw [Cursor.results_of_endOfInput hscan hkind, ofResults_endOfInput hscan hkind] at htokens hending
  exact ⟨by simpa using htokens, _, hending⟩

/-- A text has at most one sequence of tokens. -/
theorem Scanned.unique {s : List Char} {ts us : List Token} (h : Scanned s ts)
    (h' : Scanned s us) : ts = us := by
  obtain ⟨c, eoi, hdel, hscan, hkind⟩ := h
  obtain ⟨c', eoi', hdel', hscan', hkind'⟩ := h'
  rw [← (hdel.ofResults_eq hscan hkind).1, ← (hdel'.ofResults_eq hscan' hkind').1]

end Calculator
