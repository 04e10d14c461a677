import Calculator.Proofs.Event.Tail

/-!
# Lines that a reader puts up with

A line of a log is malformed, or it holds data, or the JSON reader fails at it: its collections are
nested too deeply, or an integer has too many digits. Malformed lines, blank ones among them, are
skipped. Data that is no record is not: it is read as if it were an event, and filters fail at it.
So a log is read at all exactly if the JSON reader fails at none of its lines and, as soon as there
is a filter, no line holds anything but a record (`exists_read_iff`), and it is read as its records
by all filters exactly if every line is malformed or holds a record (`read_tolerance`).
-/

set_option autoImplicit false

namespace Calculator

namespace Datum

/-- Whether a datum is a record. -/
def isRecord : Datum → Bool
  | .record _ => true
  | _ => false

/-- The text under a name of a record. -/
def textAt? (name : String) : Datum → Option String
  | .record fields =>
    match Fields.get? fields name with
    | some (.text s) => some s
    | _ => none
  | _ => none

end Datum

namespace Sink

variable {files : Files} {cwd : Location} {s : Sink} {bytes : List UInt8} {locking : Locking}
  {level type : Option String} {limit : Int}

/-! ## Filters -/

/-- A filter that asks for a text. -/
def IsActive (wanted : Option String) : Prop := wanted ≠ none ∧ wanted ≠ some ""

/-- Whether data has under a name what a filter asks for. -/
def bears (name : String) (wanted : Option String) (d : Datum) : Bool :=
  wanted = none || wanted = some "" || d.textAt? name = wanted

section Filters

variable {name : String} {wanted : Option String} {items kept : List Datum}

theorem bears_of_not_isActive (h : ¬ IsActive wanted) (d : Datum) : bears name wanted d = true := by
  by_contra hbears
  simp only [bears, Bool.or_eq_true, decide_eq_true_eq, not_or] at hbears
  exact h hbears.1

theorem filterBy_of_not_isActive (h : ¬ IsActive wanted) :
    filterBy name wanted items = .ok items := by
  cases wanted with
  | none => rfl
  | some w =>
      by_cases hw : w = ""
      · rw [filterBy, if_pos hw]
      · exact absurd ⟨Option.some_ne_none w, fun heq => hw (Option.some.inj heq)⟩ h

theorem filterBy_of_isActive {w : String} (h : IsActive (some w)) :
    filterBy name (some w) items = items.filterM (hasText name w) :=
  if_neg fun heq => h.2 (congrArg some heq)

theorem hasText_of_isRecord {w : String} {d : Datum} (hw : IsActive (some w))
    (h : d.isRecord = true) : hasText name w d = .ok (bears name (some w) d) := by
  cases d with
  | record fields =>
      have hne : w ≠ "" := fun heq => hw.2 (congrArg some heq)
      rw [hasText]
      split
      · rename_i t ht
        simp [bears, Datum.textAt?, ht, hne]
      · rename_i hother
        have hnone : (Datum.record fields).textAt? name = none := by
          rw [Datum.textAt?]
          split
          · rename_i t ht
            exact absurd ht (hother t)
          · rfl
        simp [bears, hnone, hne]
  | _ => cases h

/-- Only records can be asked for a text. -/
theorem isRecord_of_hasText {w : String} {d : Datum} {b : Bool} (h : hasText name w d = .ok b) :
    d.isRecord = true := by
  cases d with
  | record fields => rfl
  | _ => cases h

/-- What a filter is asked of has an answer, if the filter succeeds. -/
theorem isRecord_of_filterAuxM {w : String} {found : List Datum}
    (h : items.filterAuxM (hasText name w) found = .ok kept) : ∀ d ∈ items, d.isRecord = true := by
  induction items generalizing found with
  | nil =>
      intro d hd
      cases hd
  | cons d rest ih =>
      rw [List.filterAuxM] at h
      obtain ⟨b, hb, hrest⟩ := exists_of_bind_eq_ok h
      intro d' hd'
      rcases List.mem_cons.1 hd' with rfl | hd'
      · exact isRecord_of_hasText hb
      · exact ih hrest d' hd'

/-- **A filter succeeds exactly if it asks for nothing or all data are records.** It keeps those
with the text that it asks for. -/
theorem filterBy_eq_ok_iff : filterBy name wanted items = .ok kept ↔
    (IsActive wanted → ∀ d ∈ items, d.isRecord = true) ∧
      kept = items.filter (bears name wanted) := by
  by_cases hactive : IsActive wanted
  · obtain ⟨w, rfl⟩ := Option.ne_none_iff_exists'.1 hactive.1
    have hfilter (hrecords : ∀ d ∈ items, d.isRecord = true) :
        items.filterM (hasText name w) = .ok (items.filter (bears name (some w))) := by
      have htext : ∀ d ∈ items, hasText name w (id d) = .ok (bears name (some w) d) :=
        fun d hd => hasText_of_isRecord hactive (hrecords d hd)
      have hkept := filterM_map htext
      rwa [List.map_id, List.map_id] at hkept
    rw [filterBy_of_isActive hactive]
    constructor
    · intro h
      obtain ⟨found, hfound, -⟩ := exists_of_bind_eq_ok h
      have hrecords := isRecord_of_filterAuxM hfound
      rw [hfilter hrecords] at h
      exact ⟨fun _ => hrecords, (Except.ok.inj h).symm⟩
    · rintro ⟨hrecords, rfl⟩
      exact hfilter (hrecords hactive)
  · have hall : items.filter (bears name wanted) = items :=
      List.filter_eq_self.2 fun d _ => bears_of_not_isActive hactive d
    rw [filterBy_of_not_isActive hactive, hall]
    constructor
    · intro h
      exact ⟨fun h => absurd h hactive, (Except.ok.inj h).symm⟩
    · rintro ⟨-, rfl⟩
      rfl

end Filters

/-- Whether data has what the filters of a request ask for. -/
def passes (level type : Option String) (d : Datum) : Bool :=
  bears "level" level d && bears "event_type" type d

/-- Of data in order what a request asks for: the data that passes its filters, the last one first,
and at most so many. -/
def latest (level type : Option String) (limit : Int) (all : List Datum) : List Datum :=
  firstOf (min limit mostEvents) (all.filter (passes level type)).reverse

/-- **What it takes to read, and what is read**: all data is there, and as soon as there is a filter
it is records only. -/
theorem read_eq_ok_iff {found : List Datum} :
    s.read locking files cwd level type limit = .ok found ↔
      ∃ all, s.readAll locking files cwd = .ok all ∧
        (IsActive level ∨ IsActive type → ∀ d ∈ all, d.isRecord = true) ∧
        found = latest level type limit all := by
  have hpasses (all : List Datum) :
      (all.filter (bears "level" level)).filter (bears "event_type" type) =
        all.filter (passes level type) := by
    rw [List.filter_filter]
    exact congrArg (all.filter ·) (funext fun d => Bool.and_comm _ _)
  constructor
  · intro h
    obtain ⟨all, hall, h⟩ := exists_of_bind_eq_ok h
    obtain ⟨first, hfirst, h⟩ := exists_of_bind_eq_ok h
    obtain ⟨second, hsecond, h⟩ := exists_of_bind_eq_ok h
    obtain ⟨hlevel, rfl⟩ := filterBy_eq_ok_iff.1 hfirst
    obtain ⟨htype, rfl⟩ := filterBy_eq_ok_iff.1 hsecond
    refine ⟨all, hall, ?_, ?_⟩
    · intro hactive
      by_cases hleft : IsActive level
      · exact hlevel hleft
      · -- a first filter that asks for nothing leaves all data to the second
        have hkept : all.filter (bears "level" level) = all :=
          List.filter_eq_self.2 fun d _ => bears_of_not_isActive hleft d
        rw [hkept] at htype
        exact htype (hactive.resolve_left hleft)
    · rw [latest, ← hpasses]
      exact (Except.ok.inj h).symm
  · rintro ⟨all, hall, hrecords, rfl⟩
    have hlevel : filterBy "level" level all = .ok (all.filter (bears "level" level)) :=
      filterBy_eq_ok_iff.2 ⟨fun h => hrecords (.inl h), rfl⟩
    have htype : filterBy "event_type" type (all.filter (bears "level" level)) =
        .ok ((all.filter (bears "level" level)).filter (bears "event_type" type)) :=
      filterBy_eq_ok_iff.2
        ⟨fun h d hd => hrecords (.inr h) d (List.mem_of_mem_filter hd), rfl⟩
    rw [read, hall]
    show filterBy "level" level all >>= _ = _
    rw [hlevel]
    show filterBy "event_type" type _ >>= _ = _
    rw [htype, hpasses]
    rfl

/-! ## Lines -/

/-- The lines of a text of bytes, without the blanks around them. -/
def trimmedLines (bytes : List UInt8) : List (List Char) :=
  (Text.splitLines (Text.Utf8.decodeLossy bytes)).map Text.trim

/-- A line at which the JSON reader does not fail: it holds data or is malformed. -/
def IsReadable (l : List Char) : Prop := ∀ cause, Json.read l ≠ .error (.failure cause)

/-- A line that holds a record or nothing. -/
def IsTolerable (l : List Char) : Prop :=
  Json.read l = .error .malformed ∨ ∃ fields, Json.read l = .ok (.record fields)

theorem IsTolerable.isReadable {l : List Char} (h : IsTolerable l) : IsReadable l := by
  intro cause heq
  rcases h with h | ⟨fields, h⟩
  · rw [h] at heq
    cases heq
  · rw [h] at heq
    cases heq

/-- Of a readable line, all data that it may hold is taken. -/
theorem parseLine_eq_ok_iff {l : List Char} {found : Option Datum} :
    parseLine l = .ok found ↔ IsReadable l ∧ found = Json.read? l := by
  unfold parseLine IsReadable Json.read?
  cases hread : Json.read l with
  | ok d => simp [Except.toOption, eq_comm]
  | error fault =>
      cases fault with
      | malformed => simp [Except.toOption, eq_comm]
      | failure cause => simp

/-- Blank lines are malformed, so they are skipped like other malformed lines. -/
theorem lineStep_eq (l : List Char) :
    (if l = [] then pure none else parseLine l) = parseLine l := by
  split
  · subst l
    rfl
  · rfl

/-- The data in the lines of bytes, in order. -/
def dataIn (bytes : List UInt8) : List Datum := (trimmedLines bytes).filterMap Json.read?

/-- The records in the lines of bytes, in order. -/
def recordsIn (bytes : List UInt8) : List Datum := (dataIn bytes).filter Datum.isRecord

/-- **Bytes are parsed exactly if all lines are readable**, to the data that they hold. -/
theorem parse_eq_ok_iff {found : List Datum} : parse bytes = .ok found ↔
    (∀ l ∈ trimmedLines bytes, IsReadable l) ∧ found = dataIn bytes := by
  unfold dataIn
  show (trimmedLines bytes).filterMapM (fun l => if l = [] then pure none else parseLine l) = _ ↔ _
  simp only [lineStep_eq]
  induction trimmedLines bytes generalizing found with
  | nil => simp [pure, Except.pure, eq_comm]
  | cons l rest ih =>
      rw [List.filterMapM_cons, List.forall_mem_cons, List.filterMap_cons]
      cases hline : parseLine l with
      | error cause =>
          constructor
          · intro h
            cases h
          · rintro ⟨⟨hl, -⟩, -⟩
            rw [parseLine_eq_ok_iff.2 ⟨hl, rfl⟩] at hline
            cases hline
      | ok found? =>
          obtain ⟨hl, hfound⟩ := parseLine_eq_ok_iff.1 hline
          rw [← hfound]
          cases found? with
          | none => exact ih.trans (and_congr_left' (and_iff_right hl).symm)
          | some d =>
              show (rest.filterMapM (parseLine ·) >>= fun ds => .ok (d :: ds)) = _ ↔ _
              constructor
              · intro h
                obtain ⟨more, hmore, h⟩ := exists_of_bind_eq_ok h
                obtain ⟨hrest, rfl⟩ := ih.1 hmore
                exact ⟨⟨hl, hrest⟩, (Except.ok.inj h).symm⟩
              · rintro ⟨⟨-, hrest⟩, rfl⟩
                rw [ih.2 ⟨hrest, rfl⟩]
                rfl

/-- The data of readable lines is records alone exactly if the lines are tolerable. -/
theorem forall_isRecord_iff (h : ∀ l ∈ trimmedLines bytes, IsReadable l) :
    (∀ d ∈ dataIn bytes, d.isRecord = true) ↔ ∀ l ∈ trimmedLines bytes, IsTolerable l := by
  constructor
  · intro hrecords l hl
    cases hread : Json.read l with
    | ok d =>
        have hmem : d ∈ dataIn bytes := by
          refine List.mem_filterMap.2 ⟨l, hl, ?_⟩
          rw [Json.read?, hread]
          rfl
        have hrecord := hrecords d hmem
        cases d with
        | record fields => exact .inr ⟨fields, hread⟩
        | _ => cases hrecord
    | error fault =>
        cases fault with
        | malformed => exact .inl hread
        | failure cause => exact absurd hread (h l hl cause)
  · intro htolerable d hd
    obtain ⟨l, hl, hread⟩ := List.mem_filterMap.1 hd
    rw [Json.read?] at hread
    rcases htolerable l hl with hline | ⟨fields, hline⟩
    · rw [hline] at hread
      cases hread
    · rw [hline] at hread
      obtain rfl := Option.some.inj hread
      rfl

/-! ## Reading -/

/-- What it takes to read the tail of a file, and what is read. -/
theorem read_eq_ok_iff_lines (h : Holds files cwd s bytes) (hsize : 0 ≤ s.tailBytes)
    {found : List Datum} : s.read locking files cwd level type limit = .ok found ↔
      (∀ l ∈ trimmedLines (tail s.tailBytes.toNat bytes), IsReadable l) ∧
        (IsActive level ∨ IsActive type →
          ∀ l ∈ trimmedLines (tail s.tailBytes.toNat bytes), IsTolerable l) ∧
        found = latest level type limit (dataIn (tail s.tailBytes.toNat bytes)) := by
  rw [read_eq_ok_iff, readAll_tail locking h hsize]
  constructor
  · rintro ⟨all, hall, hrecords, rfl⟩
    obtain ⟨hreadable, rfl⟩ := parse_eq_ok_iff.1 hall
    exact ⟨hreadable, fun hactive => (forall_isRecord_iff hreadable).1 (hrecords hactive), rfl⟩
  · rintro ⟨hreadable, htolerable, rfl⟩
    have hrecords := fun hactive => (forall_isRecord_iff hreadable).2 (htolerable hactive)
    exact ⟨_, parse_eq_ok_iff.2 ⟨hreadable, rfl⟩, hrecords, rfl⟩

/-- **Reading is tolerant of all content that is records or malformed, and of no other.** Whatever
the bytes of the file and however large the tail: all requests are answered with records, those of
the tail that pass the filters, exactly if each of its lines is malformed, as blank lines are, or
holds a record. As to a single request: it is answered exactly if the JSON reader fails at no line
and, as soon as there is a filter, each line is malformed or holds a record. Without a filter, data
of other kinds comes among the records and counts against the limit. -/
theorem read_tolerance (locking : Locking) (h : Holds files cwd s bytes) (hsize : 0 ≤ s.tailBytes) :
    ((∀ (level type : Option String) (limit : Int), 0 ≤ limit →
        s.read locking files cwd level type limit =
          .ok (latest level type limit (recordsIn (tail s.tailBytes.toNat bytes)))) ↔
      ∀ l ∈ trimmedLines (tail s.tailBytes.toNat bytes), IsTolerable l) ∧
    ∀ (level type : Option String) (limit : Int) (found : List Datum),
      s.read locking files cwd level type limit = .ok found ↔
        (∀ l ∈ trimmedLines (tail s.tailBytes.toNat bytes), IsReadable l) ∧
          (IsActive level ∨ IsActive type →
            ∀ l ∈ trimmedLines (tail s.tailBytes.toNat bytes), IsTolerable l) ∧
          found = latest level type limit (dataIn (tail s.tailBytes.toNat bytes)) := by
  refine ⟨⟨?_, ?_⟩, fun level type limit found => read_eq_ok_iff_lines h hsize⟩
  · intro hread
    -- a single filter tells all lines apart
    have hactive : IsActive (some "info") := ⟨by decide, by decide⟩
    have hinfo := hread (some "info") none 0 (Int.le_refl 0)
    exact ((read_eq_ok_iff_lines h hsize).1 hinfo).2.1 (.inl hactive)
  · intro hlines level type limit hlimit
    have hreadable := fun l hl => (hlines l hl).isReadable
    have hrecords := (forall_isRecord_iff hreadable).2 hlines
    rw [recordsIn, List.filter_eq_self.2 hrecords]
    exact (read_eq_ok_iff_lines h hsize).2 ⟨hreadable, fun _ => hlines, rfl⟩

/-- The line of a record that has a level and nothing else. -/
def levelLine : List Char :=
  ['\x7b', '"', 'l', 'e', 'v', 'e', 'l', '"', ':', ' ', '"', 'i', 'n', 'f', 'o', '"', '\x7d']

/-- The bytes of a log with a number before its only record. -/
def scalarBytes : List UInt8 := Text.Utf8.encode ('5' :: '\n' :: levelLine ++ ['\n'])

/-- The files of this log. -/
def scalarFiles : Files :=
  [(["logs"], .directory), (["logs", fileName], .ofBytes scalarBytes)]

/-- A sink of this log whose tail is longer than the file. -/
def scalarSink : Sink := ⟨⟨"", ["logs"]⟩, 400⟩

theorem holds_scalarFiles : Holds scalarFiles [] scalarSink scalarBytes :=
  .inl (Node.bytes?_ofBytes _)

theorem tail_scalarBytes : tail scalarSink.tailBytes.toNat scalarBytes = scalarBytes :=
  if_pos (by decide)

theorem parse_scalarBytes :
    parse scalarBytes = .ok [.int 5, .record [("level", .text "info")]] := by
  have hascii :
      ('5' :: '\n' :: levelLine ++ ['\n']).all (fun c => decide (c.toNat < 0x80)) = true := rfl
  rw [parse, scalarBytes, Text.Utf8.decodeLossy_encode fun c hc =>
    of_decide_eq_true (List.all_eq_true.1 hascii c hc)]
  rfl

/-- Without a filter the number is read as the earlier of two events. With one nothing is read. -/
theorem read_tolerance_scalar :
    scalarSink.read .locked scalarFiles [] none none 200 =
        .ok [.record [("level", .text "info")], .int 5] ∧
      ¬ ∃ found, scalarSink.read .locked scalarFiles [] (some "info") none 200 = .ok found := by
  obtain ⟨-, hread⟩ := read_tolerance .locked holds_scalarFiles (by decide)
  obtain ⟨hreadable, hdata⟩ := parse_eq_ok_iff.1 parse_scalarBytes
  rw [tail_scalarBytes, ← hdata] at hread
  constructor
  · refine (hread none none 200 _).2 ⟨hreadable, ?_, rfl⟩
    rintro (⟨hnone, -⟩ | ⟨hnone, -⟩)
    · exact absurd rfl hnone
    · exact absurd rfl hnone
  · rintro ⟨found, hfound⟩
    have hlines := ((hread (some "info") none 200 found).1 hfound).2.1 (.inl ⟨by decide, by decide⟩)
    have hrecords := (forall_isRecord_iff hreadable).2 hlines
    rw [← hdata] at hrecords
    exact absurd (hrecords _ List.mem_cons_self) Bool.false_ne_true

/-- With a filter the log is not read, though it holds a record that passes it. -/
theorem read_scalar_filtered :
    scalarSink.read .locked scalarFiles [] (some "info") none 200 =
        .error (.noAttribute "int" "get") ∧
      latest (some "info") none 200 (recordsIn scalarBytes) =
        [.record [("level", .text "info")]] := by
  constructor
  · rw [read, readAll_tail .locked holds_scalarFiles (by decide), tail_scalarBytes,
      parse_scalarBytes]
    rfl
  · rw [recordsIn, ← (parse_eq_ok_iff.1 parse_scalarBytes).2]
    rfl

end Sink

end Calculator
