import Calculator.Proofs.Source.Delivery
import Calculator.Proofs.Source.Items

/-!
# Layout

Blanks keep tokens apart and mean nothing else. No item goes on behind a blank, since a blank is
neither a letter nor a digit (`readItem_append_of_startsBlank`). What a text yields (`Yields`), its lexemes and
the fault that ends them, is therefore the same however many blanks of whatever kind stand in a
place that has some, and whatever blanks stand at either end (`Relaid.yields`). The scan delivers
what the text yields (`Yields.delivers`).
-/

set_option autoImplicit false

namespace Calculator

/-! ## Blanks are no letters and no digits -/

namespace Text

/-- No interval of one set meets one of the other. -/
def CodeSet.isApartFrom (s t : CodeSet) : Bool :=
  s.all fun r => t.all fun q => r.2 < q.1 || q.2 < r.1

theorem CodeSet.not_holds_of_isApartFrom {s t : CodeSet} (h : s.isApartFrom t) {c : Char}
    (hc : s.holds c) : t.holds c = false := by
  obtain ⟨r, hr, hrc⟩ := List.any_eq_true.1 hc
  refine List.any_eq_false.2 fun q hq hqc => ?_
  have hapart := List.all_eq_true.1 (List.all_eq_true.1 h r hr) q hq
  simp only [Bool.and_eq_true, Bool.or_eq_true, decide_eq_true_eq] at hrc hqc hapart
  omega

theorem not_isLetter_of_isBlank {c : Char} (h : isBlank c) : isLetter c = false :=
  CodeSet.not_holds_of_isApartFrom (by decide +kernel : blanks.isApartFrom letters) h

/-- The runs of decimal digits as intervals. -/
def decimalRuns : CodeSet := decimalZeros.map fun z => (z, z + 9)

theorem isDecimal_eq_holds (c : Char) : isDecimal c = decimalRuns.holds c := by
  simp only [isDecimal, decimalValue?, decimalRuns, CodeSet.holds, Option.isSome_map,
    List.any_map, List.isSome_find?]
  rfl

theorem not_isDigit_of_isBlank {c : Char} (h : isBlank c) : isDigit c = false := by
  have hdecimal : decimalRuns.holds c = false :=
    CodeSet.not_holds_of_isApartFrom (by decide +kernel : blanks.isApartFrom decimalRuns) h
  have hother : otherDigits.holds c = false :=
    CodeSet.not_holds_of_isApartFrom (by decide +kernel : blanks.isApartFrom otherDigits) h
  rw [isDigit, isDecimal_eq_holds, hdecimal, hother]
  rfl

/-- The letters and digits of ASCII as intervals. -/
def asciiWords : CodeSet := [(0x30, 0x39), (0x41, 0x5A), (0x61, 0x7A)]

theorem holds_of_isAlphanum {c : Char} (h : c.isAlphanum) : asciiWords.holds c := by
  change ((decide ('A'.val ≤ c.val ∧ c.val ≤ 'Z'.val) ||
    (decide ('a'.val ≤ c.val) && decide (c.val ≤ 'z'.val))) ||
    (decide ('0'.val ≤ c.val) && decide (c.val ≤ '9'.val))) = true at h
  simp only [Bool.or_eq_true, Bool.and_eq_true, decide_eq_true_eq, UInt32.le_iff_toNat_le] at h
  simp only [CodeSet.holds, asciiWords, List.any_cons, List.any_nil, Bool.or_eq_true,
    Bool.and_eq_true, decide_eq_true_eq, Bool.or_false]
  exact Or.elim h (fun h => Or.inr h) fun h => Or.inl h

theorem not_isAlphanum_of_isBlank {c : Char} (h : isBlank c) : c.isAlphanum = false := by
  refine Bool.eq_false_iff.2 fun hc => ?_
  have hapart := CodeSet.not_holds_of_isApartFrom
    (by decide +kernel : blanks.isApartFrom asciiWords) h
  rw [holds_of_isAlphanum hc] at hapart
  cases hapart

end Text

/-- The text does not start with anything but a blank. -/
def StartsBlank (s : List Char) : Prop := ∀ c ∈ s.head?, Text.isBlank c

section Blanks

variable {s x : List Char}

theorem StartsBlank.head_of (hx : StartsBlank x) {p : Char → Bool}
    (hp : ∀ c, Text.isBlank c → p c = false) : ∀ c ∈ x.head?, p c = false :=
  fun c hc => hp c (hx c hc)

theorem StartsBlank.noDigitFirst (hx : StartsBlank x) : NoDigitFirst x := by
  refine hx.head_of fun c hc => ?_
  have halphanum := Text.not_isAlphanum_of_isBlank hc
  exact (Bool.or_eq_false_iff.1 halphanum).2

theorem not_isExponentMark_of_isBlank {c : Char} (h : Text.isBlank c) :
    isExponentMark c = false := by
  refine Bool.eq_false_iff.2 fun hc => ?_
  rcases Bool.or_eq_true_iff.1 hc with hc | hc
  · obtain rfl := of_decide_eq_true hc
    exact absurd h (by decide)
  · obtain rfl := of_decide_eq_true hc
    exact absurd h (by decide)

theorem not_isSign_of_isBlank {c : Char} (h : Text.isBlank c) : isSign c = false := by
  refine Bool.eq_false_iff.2 fun hc => ?_
  rcases Bool.or_eq_true_iff.1 hc with hc | hc
  · obtain rfl := of_decide_eq_true hc
    exact absurd h (by decide)
  · obtain rfl := of_decide_eq_true hc
    exact absurd h (by decide)

/-! ## A blank ends every item -/

/-- A front does not go on behind its text where the next character does not belong to it. -/
theorem cut_append_of_head {p : Char → Bool} (hx : ∀ c ∈ x.head?, p c = false) :
    cut p (s ++ x) = ((cut p s).1, (cut p s).2 ++ x) := by
  induction s with
  | nil =>
      cases x with
      | nil => rfl
      | cons c x =>
          have hc : ¬ p c = true := Bool.eq_false_iff.1 (hx c rfl)
          simp [cut, hc]
  | cons c s ih =>
      obtain ⟨htake, hdrop⟩ := Prod.mk.inj ih
      by_cases hc : p c = true
      · simp only [cut, List.cons_append, List.takeWhile_cons_of_pos hc,
          List.dropWhile_cons_of_pos hc, htake, hdrop]
      · simp only [cut, List.cons_append, List.takeWhile_cons_of_neg hc,
          List.dropWhile_cons_of_neg hc]

theorem digits_append_of_head (hx : NoDigitFirst x) :
    (s ++ x).takeWhile Char.isDigit = s.takeWhile Char.isDigit ∧
      (s ++ x).dropWhile Char.isDigit = s.dropWhile Char.isDigit ++ x :=
  Prod.mk.inj (cut_append_of_head hx)

theorem cutFraction_append_of_startsBlank (hx : StartsBlank x) :
    cutFraction (s ++ x) = ((cutFraction s).1, (cutFraction s).2 ++ x) := by
  cases s with
  | nil =>
      cases x with
      | nil => rfl
      | cons c x =>
          have hc : c ≠ '.' := by
            rintro rfl
            exact absurd (hx '.' rfl) (by decide)
          simp [cutFraction, hc]
  | cons c s =>
      by_cases hc : c = '.'
      · subst hc
        obtain ⟨htake, hdrop⟩ := digits_append_of_head (s := s) hx.noDigitFirst
        simp only [List.cons_append, cutFraction, htake, hdrop]
      · simp [cutFraction, hc]

/-- No exponent starts with anything but a mark. -/
theorem cutExponent_of_head (h : ∀ c ∈ s.head?, isExponentMark c = false) :
    cutExponent s = ([], s) := by
  match s with
  | [] => rfl
  | [c] => rfl
  | [c, digit] => simp [cutExponent, h c rfl]
  | c :: sign :: digit :: s => simp [cutExponent, h c rfl]

theorem cutExponent_append_of_startsBlank (hx : StartsBlank x) :
    cutExponent (s ++ x) = ((cutExponent s).1, (cutExponent s).2 ++ x) := by
  have hdigits (s : List Char) := digits_append_of_head (s := s) hx.noDigitFirst
  have hsign := hx.head_of fun c => not_isSign_of_isBlank
  -- the mark, the sign and a digit are looked at before they are taken
  match s with
  | [] => exact cutExponent_of_head (hx.head_of fun c => not_isExponentMark_of_isBlank)
  | [mark] =>
      match x with
      | [] => rfl
      | [c] => simp [cutExponent, hx.noDigitFirst c rfl]
      | c :: c' :: x => simp [cutExponent, hx.noDigitFirst c rfl, hsign c rfl]
  | [mark, digit] =>
      match x with
      | [] => exact Prod.ext rfl (List.append_nil _).symm
      | c :: x =>
          have hc := hx.noDigitFirst c rfl
          by_cases h : (isExponentMark mark && digit.isDigit) = true
          · simp [cutExponent, hc, h]
          · simp [cutExponent, hc, h]
  | mark :: sign :: digit :: s =>
      simp only [List.cons_append, cutExponent]
      split
      · simp only [hdigits]
      · split
        · simp only [← List.cons_append, hdigits]
        · rfl

theorem cutNumber_append_of_startsBlank (hx : StartsBlank x) :
    cutNumber (s ++ x) = ((cutNumber s).1, (cutNumber s).2 ++ x) := by
  simp only [cutNumber, cut_append_of_head hx.noDigitFirst, cutFraction_append_of_startsBlank hx,
    cutExponent_append_of_startsBlank hx]

theorem itemOfWord_append_of_head {kind : TokenKind} {cause : LexicalFault}
    {spoils : Char → Bool} (hx : ∀ c ∈ x.head?, spoils c = false)
    (p : List Char × List Char) :
    itemOfWord kind cause spoils (p.1, p.2 ++ x) =
      ((itemOfWord kind cause spoils p).1, (itemOfWord kind cause spoils p).2 ++ x) := by
  rcases p with ⟨word, rest⟩
  cases rest with
  | nil =>
      cases x with
      | nil => rfl
      | cons c x => simp [itemOfWord, hx c rfl]
  | cons c rest =>
      simp only [List.cons_append, itemOfWord]
      split
      · rfl
      · rfl

/-- **A blank ends every item**: the item at the front of a text is the same, whatever stands
behind a blank that follows. -/
theorem readItem_append_of_startsBlank (hs : s ≠ []) (hx : StartsBlank x) :
    readItem (s ++ x) = ((readItem s).1, (readItem s).2 ++ x) := by
  cases s with
  | nil => exact absurd rfl hs
  | cons c s =>
      simp only [List.cons_append, readItem]
      split
      · rfl
      · split
        · rw [← List.cons_append,
            cut_append_of_head (hx.head_of fun c => Text.not_isAlphanum_of_isBlank)]
          exact itemOfWord_append_of_head (hx.head_of fun c => Text.not_isLetter_of_isBlank) _
        · split
          · rw [← List.cons_append, cutNumber_append_of_startsBlank hx]
            exact itemOfWord_append_of_head (hx.head_of fun c => Text.not_isDigit_of_isBlank) _
          · split
            · rfl
            · rfl

end Blanks

/-! ## What a text yields -/

/-- The text behind the blanks at its front, line feeds included. -/
def dropBlanks (s : List Char) : List Char := s.dropWhile Text.isBlank

/-- The text consists of blanks. -/
def AllBlank (s : List Char) : Prop := ∀ c ∈ s, Text.isBlank c

instance (s : List Char) : Decidable (AllBlank s) :=
  decidable_of_iff (s.all Text.isBlank = true) List.all_eq_true

/-- The text yields the lexemes, and then the fault or the end of the input. -/
inductive Yields : List Char → List Lexeme → Option LexicalFault → Prop where
  | finished {s} : dropBlanks s = [] → Yields s [] none
  | fault {s cause word offender} : (readItem (dropBlanks s)).1 = .fault cause word offender →
      Yields s [] (some cause)
  | lexeme {s kind text ls fault?} : (readItem (dropBlanks s)).1 = .lexeme kind text →
      Yields (readItem (dropBlanks s)).2 ls fault? →
      Yields s (⟨kind, String.ofList text⟩ :: ls) fault?

theorem dropBlanks_append_of_allBlank {s : List Char} (h : AllBlank s) (t : List Char) :
    dropBlanks (s ++ t) = dropBlanks t := List.dropWhile_append_of_pos h

theorem not_isBlank_of_dropBlanks {s : List Char} {c : Char} (h : c ∈ (dropBlanks s).head?) :
    Text.isBlank c = false := of_mem_head?_dropWhile h

/-- Blanks in front do not matter. -/
theorem Yields.of_dropBlanks {s s' : List Char} {ls : List Lexeme} {fault? : Option LexicalFault}
    (h : Yields s ls fault?) (hs : dropBlanks s = dropBlanks s') : Yields s' ls fault? := by
  cases h with
  | finished hend => exact .finished (hs ▸ hend)
  | fault hitem => exact .fault (hs ▸ hitem)
  | lexeme hitem hrest =>
      rw [hs] at hitem hrest
      exact .lexeme hitem hrest

theorem itemOfWord_ne_lineFeed {kind : TokenKind} {cause : LexicalFault} {spoils : Char → Bool}
    {p : List Char × List Char} : (itemOfWord kind cause spoils p).1 ≠ .lineFeed := by
  rcases p with ⟨word, rest⟩
  cases rest with
  | nil => exact fun h => by cases h
  | cons c rest =>
      simp only [itemOfWord]
      split
      · exact fun h => by cases h
      · exact fun h => by cases h

theorem readItem_eq_lineFeed {s : List Char} (h : (readItem s).1 = .lineFeed) :
    ∃ rest, s = '\n' :: rest := by
  cases s with
  | nil => cases h
  | cons c s =>
      simp only [readItem] at h
      split at h
      · rename_i hc
        exact ⟨s, hc ▸ rfl⟩
      · split at h
        · exact absurd h itemOfWord_ne_lineFeed
        · split at h
          · exact absurd h itemOfWord_ne_lineFeed
          · split at h <;> cases h

/-- Every text yields lexemes and an end. -/
theorem exists_yields (s : List Char) : ∃ ls fault?, Yields s ls fault? := by
  have happend := congrArg List.length (readItem_append (dropBlanks s))
  have hdrop : (dropBlanks s).length ≤ s.length := (List.dropWhile_suffix _).length_le
  cases hitem : (readItem (dropBlanks s)).1 with
  | finished => exact ⟨[], none, .finished (readItem_eq_finished (by rw [hitem]; rfl))⟩
  | lineFeed =>
      obtain ⟨rest, hrest⟩ := readItem_eq_lineFeed hitem
      have hblank : Text.isBlank '\n' = false := not_isBlank_of_dropBlanks (s := s) (by rw [hrest]; rfl)
      exact absurd hblank (by decide)
  | fault cause word offender => exact ⟨[], some cause, .fault hitem⟩
  | lexeme kind text =>
      have htext : text ≠ [] := by
        rintro rfl
        have hnil := readItem_eq_finished (s := dropBlanks s) (by rw [hitem]; rfl)
        rw [hnil] at hitem
        cases hitem
      have hpos := List.length_pos_iff.2 htext
      have hlt : (readItem (dropBlanks s)).2.length < s.length := by
        rw [hitem] at happend
        simp only [Item.chars, List.length_append] at happend
        omega
      obtain ⟨ls, fault?, h⟩ := exists_yields (readItem (dropBlanks s)).2
      exact ⟨_, fault?, .lexeme hitem h⟩
termination_by s.length

/-! ## Relaid texts -/

/-- The second text is the first one with other blanks: at least one for at least one between the
items, any at either end. -/
inductive Relaid : List Char → List Char → Prop where
  | inside {front before after rest} : AllBlank before → AllBlank after → before ≠ [] →
      after ≠ [] → Relaid (front ++ before ++ rest) (front ++ after ++ rest)
  | atStart {before after rest} : AllBlank before → AllBlank after →
      Relaid (before ++ rest) (after ++ rest)
  | atEnd {front before after} : AllBlank before → AllBlank after →
      Relaid (front ++ before) (front ++ after)
  | trans {s t u} : Relaid s t → Relaid t u → Relaid s u

/-- The texts have the same items: they differ in the blanks at their fronts, or behind a common
front. -/
inductive Alike : List Char → List Char → Prop where
  | atStart {s s'} : dropBlanks s = dropBlanks s' → Alike s s'
  | behind {front x x'} : StartsBlank x → StartsBlank x' → dropBlanks x = dropBlanks x' →
      Alike (front ++ x) (front ++ x')

theorem startsBlank_append {before rest : List Char} (h : AllBlank before) (hne : before ≠ []) :
    StartsBlank (before ++ rest) := by
  cases before with
  | nil => exact absurd rfl hne
  | cons c before =>
      intro c' hc'
      obtain rfl := Option.some.inj hc'
      exact h c List.mem_cons_self

/-- Texts with the same items have the same first one, and go on alike. -/
theorem Alike.dropBlanks {s s' : List Char} (h : Alike s s') :
    dropBlanks s = dropBlanks s' ∨
      ∃ first x x', first ≠ [] ∧ dropBlanks s = first ++ x ∧ dropBlanks s' = first ++ x' ∧
        StartsBlank x ∧ StartsBlank x' ∧ Calculator.dropBlanks x = Calculator.dropBlanks x' := by
  cases h with
  | atStart h => exact Or.inl h
  | @behind front x x' hx hx' hsame =>
      simp only [Calculator.dropBlanks, List.dropWhile_append] at hsame ⊢
      cases hfront : front.dropWhile Text.isBlank with
      | nil => exact Or.inl hsame
      | cons c first => exact Or.inr ⟨c :: first, x, x', List.cons_ne_nil _ _, rfl, rfl, hx, hx', hsame⟩

theorem Yields.of_alike {s : List Char} {ls : List Lexeme} {fault? : Option LexicalFault}
    (h : Yields s ls fault?) : ∀ {s' : List Char}, Alike s s' → Yields s' ls fault? := by
  induction h with
  | finished hend =>
      intro s' halike
      rcases halike.dropBlanks with hsame | ⟨first, x, x', hne, hs, -⟩
      · exact .finished (hsame ▸ hend)
      · rw [hs] at hend
        exact absurd (List.append_eq_nil_iff.1 hend).1 hne
  | fault hitem =>
      intro s' halike
      rcases halike.dropBlanks with hsame | ⟨first, x, x', hne, hs, hs', hx, hx', -⟩
      · exact .fault (hsame ▸ hitem)
      · rw [hs, readItem_append_of_startsBlank hne hx] at hitem
        have hfirst := readItem_append_of_startsBlank hne hx'
        rw [← hs'] at hfirst
        exact .fault ((congrArg Prod.fst hfirst).trans hitem)
  | lexeme hitem hrest ih =>
      intro s' halike
      rcases halike.dropBlanks with hsame | ⟨first, x, x', hne, hs, hs', hx, hx', hdrop⟩
      · rw [hsame] at hitem hrest
        exact .lexeme hitem hrest
      · rw [hs, readItem_append_of_startsBlank hne hx] at hitem ih
        have hfirst := readItem_append_of_startsBlank hne hx'
        rw [← hs'] at hfirst
        refine .lexeme ((congrArg Prod.fst hfirst).trans hitem) ?_
        rw [hfirst]
        exact ih (.behind hx hx' hdrop)

/-- **A relaid text yields the same.** -/
theorem Relaid.yields {s s' : List Char} (h : Relaid s s') :
    ∀ {ls : List Lexeme} {fault? : Option LexicalFault}, Yields s ls fault? → Yields s' ls fault? := by
  induction h with
  | @inside front before after rest hbefore hafter hne hne' =>
      intro ls fault? hs
      refine hs.of_alike ?_
      rw [List.append_assoc, List.append_assoc]
      refine .behind (startsBlank_append hbefore hne) (startsBlank_append hafter hne') ?_
      rw [dropBlanks_append_of_allBlank hbefore, dropBlanks_append_of_allBlank hafter]
  | @atStart before after rest hbefore hafter =>
      intro ls fault? hs
      refine hs.of_alike (.atStart ?_)
      rw [dropBlanks_append_of_allBlank hbefore, dropBlanks_append_of_allBlank hafter]
  | @atEnd front before after hbefore hafter =>
      intro ls fault? hs
      refine hs.of_alike (.behind ?_ ?_ ?_)
      · exact fun c hc => hbefore c (List.mem_of_mem_head? hc)
      · exact fun c hc => hafter c (List.mem_of_mem_head? hc)
      · have hnil := dropBlanks_append_of_allBlank hbefore []
        have hnil' := dropBlanks_append_of_allBlank hafter []
        rw [List.append_nil] at hnil hnil'
        rw [hnil, hnil']
  | trans _ _ ih ih' => exact fun hs => ih' (ih hs)

/-! ## What the scan delivers -/

/-- The result of a scan is the end of the input, or the diagnostic of a fault. -/
inductive EndsAs : Option LexicalFault → Except Diagnostic Token → Prop where
  | finished {position} : EndsAs none (.ok ⟨⟨.endOfInput, ""⟩, position⟩)
  | fault {cause line position} : EndsAs (some cause) (.error (.ofScan cause.name line position))

/-- The scan of a source finds the lexemes, ends of lines left out, and then the end of the input
or the fault. -/
def Finds (s : List Char) (ls : List Lexeme) (fault? : Option LexicalFault) : Prop :=
  ∃ ts c, Delivers (.ofText s) ts c ∧ ts.map (·.toLexeme) = ls ∧ EndsAs fault? c.scan.1

/-- Unless a line feed stands behind the blanks of the line, the item is the one behind all
blanks. -/
theorem read_of_ne_lineFeed {s : List Char} (h : (read s).item ≠ .lineFeed) :
    ((read s).item, (read s).rest) = readItem (dropBlanks s) := by
  have hsame : (cut isInlineBlank s).2 = dropBlanks s := by
    have hsplit := cut_append isInlineBlank s
    have hinline : AllBlank (cut isInlineBlank s).1 := fun c hc =>
      (Bool.and_eq_true_iff.1 (of_mem_takeWhile (p := isInlineBlank) hc)).1
    rw [← hsplit, dropBlanks_append_of_allBlank hinline, hsplit]
    cases hrest : (cut isInlineBlank s).2 with
    | nil => rfl
    | cons c rest =>
        -- the blank that is left would be a line feed
        have hc : isInlineBlank c = false := of_mem_head?_dropWhile (s := s) (by
          rw [show s.dropWhile isInlineBlank = c :: rest from hrest]
          rfl)
        have hne : c ≠ '\n' := by
          rintro rfl
          exact h (by rw [item_read, hrest]; rfl)
        have hblank : ¬ Text.isBlank c = true := by simpa [isInlineBlank, hne] using hc
        exact (List.dropWhile_cons_of_neg hblank).symm
  rw [← hsame]
  rfl

/-- **The scan delivers what the text yields.** -/
theorem Yields.delivers {ls : List Lexeme} {fault? : Option LexicalFault} (c : Cursor)
    (h : Yields c.ahead ls fault?) :
    ∃ ts c', Delivers c ts c' ∧ ts.map (·.toLexeme) = ls ∧ EndsAs fault? c'.scan.1 := by
  by_cases hfeed : (read c.ahead).item = .lineFeed
  · -- the blanks in front end at least one line
    have happend := read_append c.ahead
    rw [hfeed] at happend
    have hblank : AllBlank ((read c.ahead).blanks ++ ['\n']) := by
      intro c' hc'
      rcases List.mem_append.1 hc' with hc' | hc'
      · exact (Bool.and_eq_true_iff.1 (of_mem_takeWhile (p := isInlineBlank) hc')).1
      · obtain rfl := List.mem_singleton.1 hc'
        decide
    have hdrop : dropBlanks c.ahead = dropBlanks c.scan.2.ahead := by
      rw [← happend, ← List.append_assoc]
      exact dropBlanks_append_of_allBlank hblank _
    have hlt : c.scan.2.ahead.length < c.ahead.length :=
      length_rest_read_lt (by rw [hfeed]; exact fun h => by cases h)
    obtain ⟨ts, c', hdel, hts, hend⟩ := (h.of_dropBlanks hdrop).delivers c.scan.2
    have hscan : c.scan.1 = .ok ⟨⟨.endOfLine, ""⟩, (c.atItem.passed.pass '\n').position⟩ := by
      simp only [Cursor.scan, Cursor.report, hfeed]
      rfl
    exact ⟨ts, c', .lineEnd hscan rfl hdel, hts, hend⟩
  · have hitem : (read c.ahead).item = (readItem (dropBlanks c.ahead)).1 :=
      congrArg Prod.fst (read_of_ne_lineFeed hfeed)
    have hrest : (read c.ahead).rest = (readItem (dropBlanks c.ahead)).2 :=
      congrArg Prod.snd (read_of_ne_lineFeed hfeed)
    cases h with
    | finished hend =>
        have hfinished : (read c.ahead).item = .finished := by
          rw [hitem, hend]
          rfl
        refine ⟨[], c, .done, rfl, ?_⟩
        simp only [Cursor.scan, Cursor.report, hfinished]
        exact .finished
    | fault hfault =>
        rw [← hitem] at hfault
        refine ⟨[], c, .done, rfl, ?_⟩
        simp only [Cursor.scan, Cursor.report, hfault]
        exact .fault
    | @lexeme _ kind text _ _ hlexeme htail =>
        rw [← hitem] at hlexeme
        rw [← hrest] at htail
        have hlt : c.scan.2.ahead.length < c.ahead.length :=
          length_rest_read_lt (by rw [hlexeme]; exact fun h => by cases h)
        obtain ⟨hinput, hline⟩ := (isLexeme_of_read hlexeme).kind_ne
        obtain ⟨ts, c', hdel, hts, hend⟩ := htail.delivers c.scan.2
        refine ⟨⟨⟨kind, String.ofList text⟩, c.atItem.passed.position⟩ :: ts, c',
          .token ?_ hline hinput hdel, by rw [List.map_cons, hts], hend⟩
        simp only [Cursor.scan, Cursor.report, hlexeme]
        rfl
termination_by c.ahead.length

/-- **A relaid source has the same tokens.** -/
theorem Relaid.finds {s s' : List Char} (h : Relaid s s') :
    ∃ ls fault?, Finds s ls fault? ∧ Finds s' ls fault? := by
  obtain ⟨ls, fault?, hs⟩ := exists_yields s
  exact ⟨ls, fault?, hs.delivers (.ofText s), (h.yields hs).delivers (.ofText s')⟩

end Calculator
