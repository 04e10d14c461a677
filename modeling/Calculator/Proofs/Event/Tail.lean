import Calculator.Proofs.Event.Emission
import Calculator.Proofs.Event.Locking

/-!
# Tails of logs

A log is the lines of its events. The events whose whole lines lie within its last bytes are a final
segment of them (`within_suffix`), the longest that has no more bytes (`suffix_within_iff`). A
reader that starts inside the log sees the end of a line and then whole lines (`drop_logBytes`), but
not the byte before its start: it takes what it sees first for the end of a line even if it is a
whole one. So the lines behind its first byte are left (`tail_logBytes`). A log is read as far as
whole lines reach unless a line starts exactly where the reader does; then the event of this line is
lost, and no other (`read_logBytes`).
-/

set_option autoImplicit false

namespace Calculator.Sink

variable {files : Files} {cwd : Location} {s : Sink} {e : Event} {events later : List Event}
  {size : Nat}

/-! ## Logs -/

/-- The bytes of a log: the lines of its events, in order. -/
def logBytes (events : List Event) : List UInt8 :=
  events.flatMap fun e => Text.Utf8.encode (line e)

/-- A line has one line feed, at its end. -/
theorem encode_line (e : Event) :
    ∃ text, 10 ∉ text ∧ Text.Utf8.encode (line e) = text ++ [10] :=
  ⟨_, Text.Utf8.not_mem_encode (isPlain_lineText e), List.flatMap_append⟩

theorem logBytes_cons (e : Event) (rest : List Event) :
    logBytes (e :: rest) = Text.Utf8.encode (line e) ++ logBytes rest :=
  List.flatMap_cons

theorem logBytes_append (before later : List Event) :
    logBytes (before ++ later) = logBytes before ++ logBytes later :=
  List.flatMap_append

theorem length_logBytes_pos (h : events ≠ []) : 0 < (logBytes events).length := by
  obtain ⟨e, rest, rfl⟩ := List.exists_cons_of_ne_nil h
  obtain ⟨text, -, hline⟩ := encode_line e
  rw [logBytes_cons, hline]
  simp

theorem eq_nil_of_length_logBytes (h : (logBytes events).length = 0) : events = [] := by
  by_contra hne
  exact (length_logBytes_pos hne).ne' h

/-- A line has at least two bytes, those of a brace and of its line feed. -/
theorem one_lt_length_logBytes (e : Event) : 1 < (logBytes [e]).length := by
  obtain ⟨inner, hline⟩ := line_eq e
  have hopen : String.utf8EncodeChar '\x7b' = [0x7B] := by decide
  have hclose : 0 < '\x7d'.utf8Size := by decide
  rw [logBytes_cons, hline, Text.Utf8.encode]
  simp [hopen, hclose]

theorem length_logBytes_le (h : later <:+ events) :
    (logBytes later).length ≤ (logBytes events).length := by
  obtain ⟨before, rfl⟩ := h
  rw [logBytes_append, List.length_append]
  exact Nat.le_add_left _ _

/-! ## Whole lines within a tail -/

/-- The events whose whole lines lie within the last `size` bytes of a log. -/
def within (size : Nat) : List Event → List Event
  | [] => []
  | e :: rest => if (logBytes (e :: rest)).length ≤ size then e :: rest else within size rest

theorem within_of_le (h : (logBytes events).length ≤ size) : within size events = events := by
  cases events with
  | nil => rfl
  | cons e rest => rw [within, if_pos h]

theorem within_suffix (size : Nat) (events : List Event) : within size events <:+ events := by
  induction events with
  | nil => exact List.suffix_rfl
  | cons e rest ih =>
      rw [within]
      split
      · exact List.suffix_rfl
      · exact ih.trans (List.suffix_cons e rest)

theorem length_logBytes_within_le (size : Nat) (events : List Event) :
    (logBytes (within size events)).length ≤ size := by
  induction events with
  | nil => exact Nat.zero_le _
  | cons e rest ih =>
      rw [within]
      split
      · assumption
      · exact ih

/-- A final segment of a log lies within the tail exactly if it has no more bytes. -/
theorem suffix_within_iff (h : later <:+ events) :
    later <:+ within size events ↔ (logBytes later).length ≤ size := by
  constructor
  · exact fun hwithin => (length_logBytes_le hwithin).trans (length_logBytes_within_le size events)
  · intro hsize
    induction events with
    | nil => exact h
    | cons e rest ih =>
        rw [within]
        split
        · exact h
        · rename_i hlarge
          rcases List.suffix_cons_iff.1 h with rfl | hrest
          · exact absurd hsize hlarge
          · exact ih hrest

/-- A longer tail has no fewer lines. -/
theorem within_suffix_within {less : Nat} (h : less ≤ size) (events : List Event) :
    within less events <:+ within size events :=
  (suffix_within_iff (within_suffix less events)).2
    ((length_logBytes_within_le less events).trans h)

/-- A cut between two lines of a log: events whose lines are exactly the tail, with others before
them. -/
def IsAligned (size : Nat) (events : List Event) : Prop :=
  ∃ before later, before ≠ [] ∧ later ≠ [] ∧ events = before ++ later ∧
    (logBytes later).length = size

/-- A tail without its first byte has the same whole lines, unless a line starts there. -/
theorem within_pred_of_not_isAligned (hsize : size < (logBytes events).length)
    (h : ¬ IsAligned size events) : within (size - 1) events = within size events := by
  obtain ⟨before, hevents⟩ := within_suffix size events
  have hle := length_logBytes_within_le size events
  have hlast : (logBytes (within size events)).length ≤ size - 1 := by
    by_contra hlarge
    -- the lines are the whole tail, and what is longer than the tail has events before them
    have hlength : (logBytes (within size events)).length = size := by omega
    refine h ⟨before, within size events, ?_, ?_, hevents.symm, hlength⟩
    · rintro rfl
      rw [List.nil_append] at hevents
      rw [hevents] at hlength
      exact absurd hlength hsize.ne'
    · intro hnil
      rw [hnil] at hlarge
      exact hlarge (Nat.zero_le _)
  have hback := (suffix_within_iff (within_suffix size events)).2 hlast
  exact (within_suffix_within (Nat.sub_le size 1) events).eq_of_length_le hback.length_le

/-- At a cut between two lines, a tail without its first byte has all its lines but the first. -/
theorem exists_within_of_isAligned (h : IsAligned size events) :
    size < (logBytes events).length ∧
      ∃ e, within size events = e :: within (size - 1) events := by
  obtain ⟨before, later, hbefore, hlater, rfl, hlength⟩ := h
  have hpos := length_logBytes_pos hbefore
  have hlarge : size < (logBytes (before ++ later)).length := by
    rw [logBytes_append, List.length_append]
    omega
  -- the tail is the lines of the later events, no more and no less
  have hwithin : within size (before ++ later) = later := by
    obtain ⟨more, hmore⟩ :=
      (suffix_within_iff (List.suffix_append before later)).2 (Nat.le_of_eq hlength)
    have hle := length_logBytes_within_le size (before ++ later)
    rw [← hmore, logBytes_append, List.length_append] at hle
    have hnil : more = [] := eq_nil_of_length_logBytes (by omega)
    rw [← hmore, hnil, List.nil_append]
  obtain ⟨e, rest, rfl⟩ := List.exists_cons_of_ne_nil hlater
  have hsize : (logBytes rest).length < size := by
    obtain ⟨text, -, hline⟩ := encode_line e
    rw [logBytes_cons, hline] at hlength
    simp only [List.length_append, List.length_singleton] at hlength
    omega
  refine ⟨hlarge, e, hwithin.trans (congrArg (e :: ·) ?_)⟩
  -- the rest fits behind the first byte, and the first of the lines does not
  have hrest : rest <:+ within (size - 1) (before ++ e :: rest) := by
    have hsuffix := (List.suffix_cons e rest).trans (List.suffix_append before (e :: rest))
    exact (suffix_within_iff hsuffix).2 (by omega)
  have hforth := within_suffix_within (Nat.sub_le size 1) (before ++ e :: rest)
  rw [hwithin] at hforth
  rcases List.suffix_cons_iff.1 hforth with heq | hback
  · have hsmall := length_logBytes_within_le (size - 1) (before ++ e :: rest)
    rw [heq] at hsmall
    omega
  · exact hrest.eq_of_length_le hback.length_le

/-! ## Reading -/

/-- Behind any place inside a log there is the end of a line, and then whole lines: those that lie
behind the byte at this place. -/
theorem drop_logBytes {place : Nat} (h : place < (logBytes events).length) :
    ∃ text, 10 ∉ text ∧ (logBytes events).drop place =
      text ++ 10 :: logBytes (within ((logBytes events).length - place - 1) events) := by
  induction events generalizing place with
  | nil => cases h
  | cons e rest ih =>
      obtain ⟨text, htext, hline⟩ := encode_line e
      have hlength : (logBytes (e :: rest)).length = text.length + 1 + (logBytes rest).length := by
        rw [logBytes_cons, hline, List.length_append, List.length_append, List.length_singleton]
      have hsplit : logBytes (e :: rest) = text ++ 10 :: logBytes rest := by
        rw [logBytes_cons, hline, List.append_assoc, List.singleton_append]
      rw [within, if_neg (by omega), hlength]
      by_cases hplace : place ≤ text.length
      · -- the place is in the first line
        refine ⟨text.drop place, fun hmem => htext (List.mem_of_mem_drop hmem), ?_⟩
        rw [hsplit, List.drop_append_of_le_length hplace, within_of_le (by omega)]
      · have hrest : place - (text.length + 1) < (logBytes rest).length := by omega
        obtain ⟨text', htext', hdrop⟩ := ih hrest
        refine ⟨text', htext', ?_⟩
        have hbehind : (logBytes (e :: rest)).drop place =
            (logBytes rest).drop (place - (text.length + 1)) := by
          rw [logBytes_cons, hline, List.drop_append, List.drop_eq_nil_of_le (by simp; omega)]
          simp
        have hreach : (logBytes rest).length - (place - (text.length + 1)) - 1 =
            text.length + 1 + (logBytes rest).length - place - 1 := by omega
        rw [hbehind, hdrop, hreach]

/-- **A reader that starts inside a log keeps the lines behind the first byte that it sees.** -/
theorem tail_logBytes (h : size < (logBytes events).length) :
    tail size (logBytes events) = logBytes (within (size - 1) events) := by
  rw [tail, if_neg (Nat.not_le.2 h)]
  rcases Nat.eq_zero_or_pos size with rfl | hpos
  · -- the reader starts at the end, where there is nothing to see
    have hnone := length_logBytes_within_le 0 events
    rw [Nat.sub_zero, List.drop_length, eq_nil_of_length_logBytes (Nat.le_zero.1 hnone)]
    rfl
  · have hstart : (logBytes events).length - size < (logBytes events).length := by omega
    obtain ⟨text, htext, hdrop⟩ := drop_logBytes hstart
    have hreach : (logBytes events).length - ((logBytes events).length - size) - 1 = size - 1 := by
      omega
    rw [hreach] at hdrop
    have hmiss : ∀ b ∈ text, decide (b ≠ 10) = true := by
      intro b hb
      exact decide_eq_true fun heq => htext (heq ▸ hb)
    simp only [hdrop]
    rw [if_pos (by simp), List.dropWhile_append_of_pos hmiss]
    simp

/-- A log is parsed to what is recorded of its events. -/
theorem parse_logBytes (h : ∀ e ∈ events, IsLogged e) :
    parse (logBytes events) = .ok (events.map recorded) := by
  apply parse_lines_of_read
  intro e he
  obtain ⟨hproper, hintegers, hdepth⟩ := h e he
  exact Json.read_sorted (Event.isProper_datum hproper) hintegers hdepth

/-- Of what a file holds its tail is parsed. -/
theorem readAll_tail (locking : Locking) {bytes : List UInt8} (h : Holds files cwd s bytes)
    (hsize : 0 ≤ s.tailBytes) :
    s.readAll locking files cwd = parse (tail s.tailBytes.toNat bytes) := by
  rcases h with hbytes | ⟨hnone, rfl⟩
  · exact readAll_of_bytes? locking hbytes hsize
  · -- a missing file is read like an empty one
    have htail : tail s.tailBytes.toNat [] = [] := if_pos (Nat.zero_le _)
    rw [readAll_of_none locking hnone, htail, parse_nil]

/-- Events that are all read without a filter come most recent first. -/
theorem read_of_readAll_map {locking : Locking} {limit : Int}
    (hall : s.readAll locking files cwd = .ok (events.map recorded))
    (hlimit : (events.length : Int) ≤ min limit mostEvents) :
    s.read locking files cwd none none limit = .ok (events.reverse.map recorded) := by
  have hmost : 0 ≤ min limit mostEvents := (Int.natCast_nonneg _).trans hlimit
  have hfirst : firstOf (min limit mostEvents) (events.map recorded).reverse =
      events.reverse.map recorded := by
    rw [firstOf, if_pos hmost, ← List.map_reverse]
    apply List.take_of_length_le
    simpa using (Int.le_toNat hmost).2 hlimit
  rw [read, hall]
  exact congrArg Except.ok hfirst

/-- **A log is read as far as whole lines reach, but for the line at the start of the tail.** For
every log and every tail without a negative size, as long as no limit is reached: the events whose
whole lines lie within the tail are read, the most recent one first, unless the log is longer and a
line starts exactly where the tail does. Then all of them are read but the first, the event of this
line. -/
theorem read_logBytes (locking : Locking) {limit : Int} (hsize : 0 ≤ s.tailBytes)
    (hlogged : ∀ e ∈ events, IsLogged e) (hlog : Holds files cwd s (logBytes events))
    (hlimit : ((within s.tailBytes.toNat events).length : Int) ≤ min limit mostEvents) :
    (¬ IsAligned s.tailBytes.toNat events →
        s.read locking files cwd none none limit =
          .ok ((within s.tailBytes.toNat events).reverse.map recorded)) ∧
      (IsAligned s.tailBytes.toNat events →
        ∃ e rest, within s.tailBytes.toNat events = e :: rest ∧
          s.read locking files cwd none none limit = .ok (rest.reverse.map recorded)) := by
  have hparse (size : Nat) :
      parse (logBytes (within size events)) = .ok ((within size events).map recorded) :=
    parse_logBytes fun e he => hlogged e ((within_suffix size events).subset he)
  have hall := readAll_tail locking hlog hsize
  constructor
  · intro haligned
    apply read_of_readAll_map _ hlimit
    rw [hall]
    by_cases hlarge : (logBytes events).length ≤ s.tailBytes.toNat
    · rw [tail, if_pos hlarge, ← hparse, within_of_le hlarge]
    · have hlarge := Nat.lt_of_not_le hlarge
      rw [tail_logBytes hlarge, hparse, within_pred_of_not_isAligned hlarge haligned]
  · intro haligned
    obtain ⟨hlarge, e, hwithin⟩ := exists_within_of_isAligned haligned
    refine ⟨e, _, hwithin, read_of_readAll_map ?_ ?_⟩
    · rw [hall, tail_logBytes hlarge, hparse]
    · rw [hwithin, List.length_cons] at hlimit
      omega

/-- The event of a session that starts. -/
def startEvent : Event := .make "2024-01-02T03:04:05.678901Z" .info .replStarted "" []

theorem isLogged_startEvent : IsLogged startEvent :=
  ⟨⟨by decide, trivial⟩, by decide +kernel, by decide⟩

/-- The files of a log with the starts of two sessions. -/
def twoStartFiles : Files :=
  [(["logs"], .directory), (["logs", fileName], .ofBytes (logBytes [startEvent, startEvent]))]

/-- A sink whose tail is longer than a line by so many bytes. -/
def lineSink (more : Nat) : Sink :=
  ⟨⟨"", ["logs"]⟩, ((logBytes [startEvent]).length + more : Nat)⟩

theorem holds_twoStartFiles (more : Nat) :
    Holds twoStartFiles [] (lineSink more) (logBytes [startEvent, startEvent]) :=
  .inl (Node.bytes?_ofBytes _)

theorem within_twoStarts {more : Nat} (h : more < (logBytes [startEvent]).length) :
    within ((logBytes [startEvent]).length + more) [startEvent, startEvent] = [startEvent] := by
  have htwo : (logBytes [startEvent, startEvent]).length =
      (logBytes [startEvent]).length + (logBytes [startEvent]).length := by
    rw [← List.length_append, ← logBytes_append]
    rfl
  rw [within, if_neg (by omega), within_of_le (Nat.le_add_right _ _)]

/-- With one byte more than the last line has, its event is read. -/
theorem read_logBytes_twoStarts :
    (lineSink 1).read .locked twoStartFiles [] none none 200 = .ok [recorded startEvent] := by
  have hwithin := within_twoStarts (one_lt_length_logBytes startEvent)
  have haligned : ¬ IsAligned ((logBytes [startEvent]).length + 1) [startEvent, startEvent] := by
    rintro ⟨before, later, hbefore, hlater, hevents, hlength⟩
    -- one of the two lines is on each side of a cut between them
    obtain ⟨first, before, rfl⟩ := List.exists_cons_of_ne_nil hbefore
    obtain ⟨-, hevents⟩ := List.cons.inj hevents
    obtain ⟨last, later, rfl⟩ := List.exists_cons_of_ne_nil hlater
    cases before with
    | nil =>
        obtain ⟨rfl, rfl⟩ := List.cons.inj hevents
        omega
    | cons second before => simp at hevents
  have hlogged : ∀ e ∈ [startEvent, startEvent], IsLogged e := by
    simpa using isLogged_startEvent
  have hlimit : ((within (lineSink 1).tailBytes.toNat [startEvent, startEvent]).length : Int) ≤
      min 200 mostEvents := by
    show ((within ((logBytes [startEvent]).length + 1) _).length : Int) ≤ _
    rw [hwithin]
    decide
  have hread := read_logBytes .locked (Int.natCast_nonneg _) hlogged (holds_twoStartFiles 1) hlimit
  rw [hread.1 haligned]
  show Except.ok ((within ((logBytes [startEvent]).length + 1) _).reverse.map recorded) = _
  rw [hwithin]
  rfl

/-- With as many bytes as the last line has, its event is lost. -/
theorem read_twoStarts_aligned :
    within (lineSink 0).tailBytes.toNat [startEvent, startEvent] = [startEvent] ∧
      (lineSink 0).read .locked twoStartFiles [] none none 200 = .ok [] := by
  have hpos := one_lt_length_logBytes startEvent
  have hwithin := within_twoStarts (Nat.zero_lt_of_lt hpos)
  refine ⟨hwithin, read_of_readAll_nil ?_⟩
  have hnone : within ((logBytes [startEvent]).length - 1) [startEvent, startEvent] = [] := by
    rw [within, if_neg, within, if_neg (by omega), within]
    rw [logBytes_cons startEvent [startEvent], List.length_append]
    omega
  have hlarge : (lineSink 0).tailBytes.toNat < (logBytes [startEvent, startEvent]).length := by
    show (logBytes [startEvent]).length + 0 < _
    rw [logBytes_cons startEvent [startEvent], List.length_append]
    have hline : (Text.Utf8.encode (line startEvent)).length = (logBytes [startEvent]).length := by
      simp [logBytes]
    omega
  have hbytes : twoStartFiles.bytes? (Location.ofPath [] (lineSink 0).path) =
      some (logBytes [startEvent, startEvent]) := Node.bytes?_ofBytes _
  rw [readAll_of_bytes? .locked hbytes (Int.natCast_nonneg _), tail_logBytes hlarge]
  show parse (logBytes (within ((logBytes [startEvent]).length + 0 - 1) _)) = _
  rw [Nat.add_zero, hnone]
  exact parse_nil

end Calculator.Sink
