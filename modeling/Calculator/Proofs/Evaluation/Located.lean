import Calculator.Evaluation
import Calculator.Proofs.Expression.Places
import Calculator.Proofs.Grammar.Recognition
import Calculator.Proofs.Source.Delivery

/-!
# Located faults

A fault names places by the lexemes left from them on, and a transcript finds the entries at these
places. In a faithful transcript the token found was scanned behind all tokens before it, and its
line is shown as far as a cursor behind it had come (`Stands`, `Transcribes.located_stands`). So a
diagnostic of an evaluation is the scan's own, or that of a fault of the rules at the token that
stands there (`Diagnosed`, `evaluateSupply_diagnosed`).
-/

set_option autoImplicit false

namespace Calculator

variable {V : Type}

namespace Transcript

/-- The tokens of the entries. -/
def tokens (t : Transcript) : List Token := t.entries.map (·.token)

theorem lexemes_eq_plain (t : Transcript) : t.lexemes = plain t.tokens := by
  simp only [lexemes, tokens, plain, List.map_map]
  rfl

theorem endingKind_eq_complete {t : Transcript} :
    t.endingKind = .complete ↔ ∃ e, t.ending = .ok e := by
  rw [endingKind]
  cases t.ending with
  | ok e => simp
  | error trouble => simp

theorem endingKind_eq_broken {t : Transcript} :
    t.endingKind = .broken ↔ ∃ trouble, t.ending = .error trouble := by
  rw [endingKind]
  cases t.ending with
  | ok e => simp
  | error trouble => simp

/-- Counted from the end, an entry is found where it stands. -/
theorem entryAt?_of_entries {t : Transcript} {us vs : List Entry} {e : Entry}
    (h : t.entries = us ++ e :: vs) : t.entryAt? (vs.length + 1) = some e := by
  have hlength : t.entries.length - (vs.length + 1) = us.length := by
    rw [h, List.length_append, List.length_cons, Nat.add_sub_cancel]
  rw [entryAt?, if_neg (Nat.add_one_ne_zero _), hlength, h,
    List.getElem?_append_right (Nat.le_refl _), Nat.sub_self]
  rfl

theorem entryAt?_zero {t : Transcript} {e : Entry} (h : t.ending = .ok e) :
    t.entryAt? 0 = some e := by
  simp only [entryAt?, if_true, h, Except.toOption]

/-- The lexemes left belong to the entries left. -/
theorem entries_of_suffix {t : Transcript} {s : List Lexeme} (h : s <:+ t.lexemes) :
    ∃ us vs, t.entries = us ++ vs ∧ s = plain (vs.map (·.token)) := by
  obtain ⟨front, hfront⟩ := h
  obtain ⟨us, vs, hentries, -, hs⟩ := List.map_eq_append_iff.1 hfront.symm
  refine ⟨us, vs, hentries, ?_⟩
  rw [← hs, plain, List.map_map]
  rfl

theorem lexemes_of_entries {t : Transcript} {us vs : List Entry} (h : t.entries = us ++ vs) :
    t.lexemes = plain (us.map (·.token)) ++ plain (vs.map (·.token)) := by
  rw [lexemes_eq_plain, tokens, h, List.map_append, plain_append]

/-- The lexemes of the last entries are as many as these. -/
theorem length_plain_tokens (vs : List Entry) :
    (plain (vs.map (·.token))).length = vs.length := by
  simp only [plain, List.length_map]

theorem located_of_entryAt? {t : Transcript} {site ahead : List Lexeme} {e e' : Entry}
    (h : t.entryAt? site.length = some e) (h' : t.entryAt? ahead.length = some e') :
    t.located site ahead = (e.token, e'.passed.lineText e.token.position.line) := by
  simp only [located, h, h', Option.getD_some]

/-- The last entries are found alike without those before them. -/
theorem entryAt?_append (us : List Entry) {vs : List Entry} {ending : Except Trouble Entry}
    {n : Nat} (h : n ≤ vs.length) :
    entryAt? ⟨us ++ vs, ending⟩ n = entryAt? ⟨vs, ending⟩ n := by
  by_cases hn : n = 0
  · simp only [entryAt?, if_pos hn]
  · simp only [entryAt?, if_neg hn, List.length_append]
    rw [List.getElem?_append_right (by omega)]
    congr 1
    omega

/-- A value is that of the lexemes. -/
theorem evaluate_eq_ok {d : Domain V} {limit : DepthLimit} {t : Transcript} {v : V}
    (h : t.evaluate d limit = .ok v) :
    evaluateLexemes d t.endingKind limit.levels t.lexemes = .ok v := by
  rw [evaluate] at h
  cases hrun : evaluateLexemes d t.endingKind limit.levels t.lexemes with
  | error fault =>
      rw [hrun] at h
      cases h
  | ok w =>
      rw [hrun] at h
      exact congrArg Except.ok (Except.ok.inj h)

/-- An evaluation without a value reports a fault of the rules, which is about places that have
been scanned. -/
theorem evaluate_eq_error {d : Domain V} {limit : DepthLimit} {t : Transcript} {trouble : Trouble}
    (h : t.evaluate d limit = .error trouble) :
    ∃ fault, evaluateLexemes d t.endingKind limit.levels t.lexemes = .error fault ∧
      fault.Within t.lexemes t.endingKind ∧ trouble = t.report limit.levels fault := by
  have hwithin := evaluateLexemes_within d t.endingKind limit.levels t.lexemes
  rw [evaluate] at h
  cases hrun : evaluateLexemes d t.endingKind limit.levels t.lexemes with
  | ok v =>
      rw [hrun] at h
      cases h
  | error fault =>
      rw [hrun] at h hwithin
      exact ⟨fault, rfl, hwithin, (Except.error.inj h).symm⟩

end Transcript

/-! ## Tokens in their places -/

/-- The token was scanned where the lexemes `site` were left, and `passed` has been passed where
the scan has come since. -/
def Stands (c : Cursor) (lexemes site : List Lexeme) (token : Token) (passed : Passed) : Prop :=
  ∃ ts c₁ c₂, lexemes = plain ts ++ site ∧ Delivers c ts c₁ ∧ c₁.scan.1 = .ok token ∧
    token.kind ≠ .endOfLine ∧
    site.head? = (if token.kind = .endOfInput then none else some token.toLexeme) ∧
    c₁.scan.2.Reaches c₂ ∧ passed = c₂.passed

/-- The token that stands there is that of the first lexeme left. -/
theorem Stands.toLexeme_eq {c : Cursor} {lexemes site : List Lexeme} {token : Token}
    {passed : Passed} {l : Lexeme} (h : Stands c lexemes site token passed)
    (hl : l ∈ site.head?) : token.toLexeme = l := by
  obtain ⟨-, -, -, -, -, -, -, hhead, -, -⟩ := h
  rw [hl] at hhead
  split at hhead
  · cases hhead
  · exact (Option.some.inj hhead).symm

namespace Transcribes

variable {c : Cursor} {t : Transcript} {site ahead : List Lexeme}

/-- The entry found where lexemes are left stands there, if the next token has been scanned. -/
theorem entryAt?_stands (h : Transcribes c t) (hsite : site <:+ t.lexemes)
    (hp : Present t.endingKind site) :
    ∃ e, t.entryAt? site.length = some e ∧ Stands c t.lexemes site e.token e.passed := by
  obtain ⟨us, vs, hentries, rfl⟩ := Transcript.entries_of_suffix hsite
  have hlexemes := Transcript.lexemes_of_entries hentries
  cases vs with
  | nil =>
      -- no lexemes are left, so it is the end of the input that has been scanned
      have hcomplete : ∃ e, t.ending = .ok e := by
        apply Transcript.endingKind_eq_complete.1
        cases hk : t.endingKind with
        | complete => rfl
        | broken => exact absurd rfl (hp hk)
      obtain ⟨e, he⟩ := hcomplete
      obtain ⟨c₁, hdel, hscan, hkind, hpassed⟩ := h.finished_behind he
      rw [hentries, List.append_nil] at hdel
      refine ⟨e, Transcript.entryAt?_zero he, _, c₁, c₁.scan.2, hlexemes, hdel, hscan, ?_, ?_,
        .refl _, hpassed.symm⟩
      · simp [hkind]
      · rw [if_pos hkind]
        rfl
  | cons e vs =>
      obtain ⟨c₁, hdel, hscan, hline, hinput, hpassed, -⟩ := h.entry hentries
      have hlength : (plain ((e :: vs).map (·.token))).length = vs.length + 1 := by
        simp only [plain, List.length_map, List.length_cons]
      refine ⟨e, ?_, _, c₁, c₁.scan.2, hlexemes, hdel, hscan, hline, ?_, .refl _, hpassed.symm⟩
      · rw [hlength]
        exact Transcript.entryAt?_of_entries hentries
      · rw [if_neg hinput]
        rfl

/-- **A located token stands where its lexemes are left**, and its line is shown as far as the scan
had come at the unread lexemes. -/
theorem located_stands (h : Transcribes c t) (hsite : site <:+ t.lexemes)
    (hahead : ahead <:+ site) (hp : Present t.endingKind ahead) :
    ∃ token passed, t.located site ahead = (token, passed.lineText token.position.line) ∧
      Stands c t.lexemes site token passed := by
  obtain hsame | ⟨l, rest, rfl, hbehind⟩ : ahead = site ∨
      ∃ l rest, site = l :: rest ∧ ahead <:+ rest := by
    cases site with
    | nil => exact Or.inl (List.suffix_nil.1 hahead)
    | cons l rest => exact (List.suffix_cons_iff.1 hahead).imp_right fun h => ⟨l, rest, rfl, h⟩
  · -- the token at fault is the next one that is unread
    subst hsame
    obtain ⟨e, he, hstands⟩ := h.entryAt?_stands hsite hp
    exact ⟨e.token, e.passed, Transcript.located_of_entryAt? he he, hstands⟩
  · obtain ⟨us, vs, hentries, hvs⟩ := Transcript.entries_of_suffix hsite
    obtain ⟨tok, toks, htoks, rfl, rfl⟩ := plain_eq_cons hvs.symm
    obtain ⟨e, vs, rfl, rfl, rfl⟩ := List.map_eq_cons_iff.1 htoks
    obtain ⟨c₁, hdel, hscan, hline, hinput, -, htail⟩ := h.entry hentries
    -- what is unread is found in the transcript behind the token at fault
    have hahead' : ahead <:+ (⟨vs, t.ending⟩ : Transcript).lexemes := by
      rw [Transcript.lexemes_eq_plain]
      exact hbehind
    obtain ⟨e', he', ts, c₂, c₃, -, hdel', -, -, -, hreach, hpassed⟩ :=
      htail.entryAt?_stands hahead' hp
    have hlength : ahead.length ≤ vs.length := by
      rw [← Transcript.length_plain_tokens vs]
      exact hbehind.length_le
    have hfound : t.entryAt? (e.token.toLexeme :: plain (vs.map (·.token))).length = some e := by
      rw [List.length_cons, Transcript.length_plain_tokens]
      exact Transcript.entryAt?_of_entries hentries
    have hfound' : t.entryAt? ahead.length = some e' := by
      rw [← he', ← Transcript.entryAt?_append (us ++ [e]) hlength, List.append_assoc,
        List.singleton_append, ← hentries]
    refine ⟨e.token, e'.passed, Transcript.located_of_entryAt? hfound hfound', us.map (·.token),
      c₁, c₃, Transcript.lexemes_of_entries hentries, hdel, hscan, hline, ?_, ?_, hpassed⟩
    · rw [if_neg hinput]
      rfl
    · exact hdel'.reaches.trans ((Cursor.reaches_scan c₂).trans hreach)

end Transcribes

/-! ## Diagnostics -/

/-- How the evaluation of a supply comes to a diagnostic. -/
inductive Diagnosed (d : Domain V) (limit : DepthLimit) (s : Supply) : Diagnostic → Prop where
  /-- The scan has met a character that is out of place. -/
  | scan {c diag} :
      evaluateLexemes d (Transcript.ofSupply s).endingKind limit.levels
        (Transcript.ofSupply s).lexemes = .error .lexical →
      Delivers (.ofText s.text) (Transcript.ofSupply s).tokens c → c.scan.1 = .error diag →
      Diagnosed d limit s diag
  /-- A token, or the end of the input, does not fit. -/
  | misplaced {site ahead expected token passed} :
      evaluateLexemes d (Transcript.ofSupply s).endingKind limit.levels
        (Transcript.ofSupply s).lexemes = .error (.misplaced site ahead expected) →
      Stands (.ofText s.text) (Transcript.ofSupply s).lexemes site token passed →
      Diagnosed d limit s (.ofParse token (passed.lineText token.position.line)
        (some (expected.text limit.levels)))
  /-- The step of an operator or function has no result. -/
  | step {site ahead reason token passed} :
      evaluateLexemes d (Transcript.ofSupply s).endingKind limit.levels
        (Transcript.ofSupply s).lexemes = .error (.step site ahead reason) → site ≠ [] →
      Stands (.ofText s.text) (Transcript.ofSupply s).lexemes site token passed →
      Diagnosed d limit s (.ofEval token (passed.lineText token.position.line) reason)

/-- **A diagnostic comes about in one of these ways.** -/
theorem evaluateSupply_diagnosed {d : Domain V} {limit : DepthLimit} {s : Supply}
    {diag : Diagnostic} (h : evaluateSupply d limit s = .error (.diagnosed diag)) :
    Diagnosed d limit s diag := by
  have htranscribes := transcribes_ofSupply s
  obtain ⟨fault, hrun, hwithin, htrouble⟩ := Transcript.evaluate_eq_error h
  cases fault with
  | lexical =>
      obtain ⟨trouble, hending⟩ := Transcript.endingKind_eq_broken.1 hwithin
      simp only [Transcript.report, hending] at htrouble
      subst htrouble
      obtain ⟨c, hdel, hscan⟩ := htranscribes.stopped_behind hending
      exact .scan hrun hdel hscan
  | misplaced site ahead expected =>
      obtain ⟨hsite, hahead, hp⟩ := hwithin
      obtain ⟨token, passed, hlocated, hstands⟩ := htranscribes.located_stands hsite hahead hp
      rw [Transcript.report, hlocated] at htrouble
      obtain rfl := Trouble.diagnosed.inj htrouble
      exact .misplaced hrun hstands
  | step site ahead reason =>
      obtain ⟨hne, hsite, hahead, hp⟩ := hwithin
      obtain ⟨token, passed, hlocated, hstands⟩ := htranscribes.located_stands hsite hahead hp
      rw [Transcript.report, hlocated] at htrouble
      obtain rfl := Trouble.diagnosed.inj htrouble
      exact .step hrun hne hstands
  | escaped cause => cases htrouble

/-- A failure that no diagnostic reports is one of the supply, or of a step of the rules. -/
theorem evaluateSupply_escaped {d : Domain V} {limit : DepthLimit} {s : Supply} {cause : Failure}
    (h : evaluateSupply d limit s = .error (.escaped cause)) :
    s.failure? = some cause ∨
      evaluateLexemes d (Transcript.ofSupply s).endingKind limit.levels
        (Transcript.ofSupply s).lexemes = .error (.escaped cause) := by
  obtain ⟨fault, hrun, -, htrouble⟩ := Transcript.evaluate_eq_error h
  cases fault with
  | lexical =>
      left
      cases hending : (Transcript.ofSupply s).ending with
      | ok e =>
          simp only [Transcript.report, hending] at htrouble
          cases htrouble
      | error trouble =>
          simp only [Transcript.report, hending] at htrouble
          rw [← htrouble] at hending
          exact ofSupply_ending_escaped hending
  | misplaced site ahead expected => cases htrouble
  | step site ahead reason => cases htrouble
  | escaped cause' =>
      cases htrouble
      exact .inr hrun

end Calculator
