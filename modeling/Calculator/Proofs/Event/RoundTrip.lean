import Calculator.Proofs.Event.Lines
import Calculator.Proofs.Storage.Growth

/-!
# Reading back what was written

Each event that is written adds its line to the file of a sink (`Holds.write`), so a file that was
missing at first holds the lines of all events that were written since (`Holds.writeAll`). As long
as the file fits into the tail, reading it gives the events that pass the filters, the most recent
one first (`read_writeAll`).
-/

set_option autoImplicit false

namespace Calculator

/-! ## Events as data -/

namespace Event

variable {e : Event}

theorem nodup_names (e : Event) : e.fields.names.Nodup := by
  show ["schema_version", "ts", "level", "event_type", "context", "message", "error_code"].Nodup
  decide

/-- An event can be stored if its context can. -/
theorem storable_datum (h : Datum.Storable (.record e.context)) : e.datum.Storable := by
  have hcode : (Datum.ofText? e.errorCode).Storable := by
    cases e.errorCode <;> trivial
  exact ⟨e.nodup_names, trivial, trivial, trivial, trivial, h, trivial, hcode, trivial⟩

theorem floats_datum (e : Event) : e.datum.floats = Datum.floats (.record e.context) := by
  have hcode : (Datum.ofText? e.errorCode).floats = [] := by
    cases e.errorCode <;> rfl
  simp [datum, fields, Datum.floats, Datum.floatsOfFields, Datum.int, hcode]

/-- Whether a name passes a filter. No filter, or an empty one, lets all names pass. -/
def isWanted (wanted : Option String) (name : String) : Bool :=
  wanted = none || wanted = some "" || wanted = some name

/-- Whether an event passes filters for its level and its type. -/
def passes (level type : Option String) (e : Event) : Bool :=
  isWanted level e.level.name && isWanted type e.type.name

end Event

namespace Sink

variable {files files' : Files} {cwd : Location} {s : Sink} {bytes : List UInt8} {e : Event}
  {events : List Event}

/-! ## What the file holds -/

/-- Writes events one after the other. -/
def writeAll (files : Files) (cwd : Location) (s : Sink) (events : List Event) :
    Except Failure Files :=
  events.foldlM (fun files e => s.write files cwd e) files

theorem writeAll_cons {between : Files} (h : s.write files cwd e = .ok between) :
    s.writeAll files cwd (e :: events) = s.writeAll between cwd events := by
  rw [writeAll, List.foldlM_cons, h]
  rfl

/-- The file of a sink holds bytes. If it holds none, it may be missing. -/
def Holds (files : Files) (cwd : Location) (s : Sink) (bytes : List UInt8) : Prop :=
  files.bytes? (Location.ofPath cwd s.path) = some bytes ∨
    files.get? (Location.ofPath cwd s.path) = none ∧ bytes = []

theorem Holds.getD_bytes? (h : Holds files cwd s bytes) :
    (files.bytes? (Location.ofPath cwd s.path)).getD [] = bytes := by
  rcases h with hbytes | ⟨hnone, rfl⟩
  · rw [hbytes, Option.getD_some]
  · rw [Files.bytes?, hnone]
    rfl

/-- What it takes to write an event, and what is done then. -/
theorem write_eq_ok_iff : s.write files cwd e = .ok files' ↔
    e.datum.isWritable = true ∧ e.datum.depth ≤ Json.deepest ∧
      ∃ between, files.makeDirectory cwd s.directory = .ok between ∧
        between.append s.path.text (Location.ofPath cwd s.path) (Text.Utf8.encode (line e)) =
          .ok files' := by
  unfold write
  -- integers and depth are looked at before any file is touched
  cases hint : e.datum.isWritable with
  | false =>
      constructor
      · intro h
        cases h
      · rintro ⟨⟨⟩, -⟩
  | true =>
      by_cases hdepth : Json.deepest < e.datum.depth
      · rw [if_pos hdepth]
        constructor
        · intro h
          cases h
        · rintro ⟨-, hle, -⟩
          exact absurd hdepth (Nat.not_lt_of_le hle)
      · rw [if_neg hdepth]
        constructor
        · intro h
          exact ⟨rfl, Nat.le_of_not_lt hdepth, exists_of_bind_eq_ok h⟩
        · rintro ⟨-, -, between, hmake, happend⟩
          show files.makeDirectory cwd s.directory >>= _ = _
          rw [hmake]
          exact happend

/-- An event that is written adds its line, whatever the file held before. -/
theorem Holds.write (h : Holds files cwd s bytes) (hwrite : s.write files cwd e = .ok files') :
    Holds files' cwd s (bytes ++ Text.Utf8.encode (line e)) := by
  obtain ⟨-, -, between, hmake, happend⟩ := write_eq_ok_iff.1 hwrite
  have hgrown := (Files.grown_makeDirectory hmake).bytes?_eq (Location.ofPath cwd s.path)
  -- once an event has been written the file is there
  left
  rw [Files.bytes?_append happend, hgrown, h.getD_bytes?]

/-- **Events that are written add their lines, in order.** -/
theorem Holds.writeAll (h : Holds files cwd s bytes)
    (hwrite : s.writeAll files cwd events = .ok files') :
    Holds files' cwd s (bytes ++ events.flatMap fun e => Text.Utf8.encode (line e)) := by
  induction events generalizing files bytes with
  | nil =>
      cases hwrite
      simpa using h
  | cons e rest ih =>
      obtain ⟨between, hfirst, hrest⟩ := exists_of_bind_eq_ok hwrite
      rw [List.flatMap_cons, ← List.append_assoc]
      exact ih (h.write hfirst) hrest

/-- Each of the events that are written has integers and a depth that a line can have. -/
theorem of_mem_writeAll (hwrite : s.writeAll files cwd events = .ok files') (he : e ∈ events) :
    e.datum.isWritable = true ∧ e.datum.depth ≤ Json.deepest := by
  induction events generalizing files with
  | nil => cases he
  | cons first rest ih =>
      obtain ⟨between, hfirst, hrest⟩ := exists_of_bind_eq_ok hwrite
      rcases List.mem_cons.1 he with rfl | he
      · obtain ⟨hint, hdepth, -⟩ := write_eq_ok_iff.1 hfirst
        exact ⟨hint, hdepth⟩
      · exact ih hrest he

/-! ## What is read -/

/-- Of a file its tail is parsed. -/
theorem readAll_of_bytes? (locking : Locking)
    (h : files.bytes? (Location.ofPath cwd s.path) = some bytes) (hsize : 0 ≤ s.tailBytes) :
    s.readAll locking files cwd = parse (tail s.tailBytes.toNat bytes) := by
  obtain ⟨node, hnode, hbytes⟩ := Option.bind_eq_some_iff.1 h
  cases node with
  | directory => cases hbytes
  | file pieces =>
      obtain rfl := Option.some.inj hbytes
      unfold readAll
      rw [hnode]
      exact if_pos hsize

/-- What fits into the tail is its own tail. -/
theorem tail_of_length_le {size : Int} (h : (bytes.length : Int) ≤ size) :
    tail size.toNat bytes = bytes :=
  if_pos ((Int.le_toNat (Int.le_trans (Int.natCast_nonneg _) h)).2 h)

/-- A file that fits into the tail is read as a whole. -/
theorem readAll_of_holds (locking : Locking) (h : Holds files cwd s bytes)
    (hsize : ∀ found, files.bytes? (Location.ofPath cwd s.path) = some found →
      (found.length : Int) ≤ s.tailBytes) :
    s.readAll locking files cwd = parse bytes := by
  rcases h with hbytes | ⟨hnone, rfl⟩
  · have hlength := hsize bytes hbytes
    have hpositive : 0 ≤ s.tailBytes := Int.le_trans (Int.natCast_nonneg _) hlength
    rw [readAll_of_bytes? locking hbytes hpositive, tail_of_length_le hlength]
  · -- a missing file is read like an empty one, whatever the tail
    unfold readAll
    rw [hnone]
    exact parse_nil.symm

section Filtering

variable {α β ε : Type} {g : α → β} {f : β → Except ε Bool} {p : α → Bool}

theorem filterAuxM_map {items : List α} (h : ∀ a ∈ items, f (g a) = .ok (p a)) (found : List β) :
    (items.map g).filterAuxM f found = .ok (((items.filter p).map g).reverse ++ found) := by
  induction items generalizing found with
  | nil => rfl
  | cons a rest ih =>
      rw [List.map_cons, List.filterAuxM, h a List.mem_cons_self]
      show (rest.map g).filterAuxM f (cond (p a) (g a :: found) found) = _
      rw [ih fun a' ha' => h a' (List.mem_cons_of_mem a ha')]
      cases hp : p a <;> simp [hp]

/-- A filter that never fails is a filter. -/
theorem filterM_map {items : List α} (h : ∀ a ∈ items, f (g a) = .ok (p a)) :
    (items.map g).filterM f = .ok ((items.filter p).map g) := by
  rw [List.filterM, filterAuxM_map h []]
  show Except.ok _ = _
  rw [List.append_nil, List.reverse_reverse]

end Filtering

theorem hasText_record {fields : Fields} {name t : String}
    (h : fields.get? name = some (.text t)) (w : String) :
    hasText name w (.record fields) = .ok (decide (t = w)) := by
  rw [hasText, h]

/-- Filtering data by a text that events have under a name filters the events by it. -/
theorem filterBy_sorted (events : List Event) (name : String) (nameOf : Event → String)
    (h : ∀ e : Event, (name, Datum.text (nameOf e)) ∈ e.fields) (wanted : Option String) :
    filterBy name wanted (events.map fun e => e.datum.sorted) =
      .ok ((events.filter fun e => Event.isWanted wanted (nameOf e)).map fun e =>
        e.datum.sorted) := by
  have htext (w : String) (e : Event) :
      hasText name w e.datum.sorted = .ok (decide (nameOf e = w)) :=
    hasText_record (Datum.get?_sorted e.nodup_names (h e)) w
  have hall (hwanted : ∀ t, Event.isWanted wanted t = true) :
      (events.filter fun e => Event.isWanted wanted (nameOf e)) = events :=
    List.filter_eq_self.2 fun e _ => hwanted (nameOf e)
  cases wanted with
  | none => rw [hall fun _ => rfl, filterBy]
  | some w =>
      by_cases hw : w = ""
      · subst hw
        rw [hall fun _ => rfl, filterBy, if_pos rfl]
      · simp only [filterBy, if_neg hw, filterM_map fun e _ => htext w e]
        simp [Event.isWanted, hw, eq_comm]

/-- What is read once all events of the file are known: those that pass the filters, the most
recent one first, as many as are asked for. -/
theorem read_of_readAll {locking : Locking}
    (hall : s.readAll locking files cwd = .ok (events.map fun e => e.datum.sorted))
    (level type : Option String) {limit : Int} (hlimit : 0 ≤ limit) :
    s.read locking files cwd level type limit =
      .ok (((events.filter (Event.passes level type)).reverse.take (min limit 2000).toNat).map
        fun e => e.datum.sorted) := by
  have hlevel := filterBy_sorted events "level" (·.level.name)
    (fun e => by simp [Event.fields]) level
  have htype := filterBy_sorted (events.filter fun e => Event.isWanted level e.level.name)
    "event_type" (·.type.name) (fun e => by simp [Event.fields]) type
  have hpasses : (events.filter fun e => Event.isWanted level e.level.name).filter
      (fun e => Event.isWanted type e.type.name) = events.filter (Event.passes level type) := by
    rw [List.filter_filter]
    exact congrArg (events.filter ·) (funext fun e => Bool.and_comm _ _)
  have hmost : 0 ≤ min limit mostEvents := Int.le_min.2 ⟨hlimit, by decide⟩
  unfold read
  rw [hall]
  show filterBy "level" level _ >>= _ = _
  rw [hlevel]
  show filterBy "event_type" type _ >>= _ = _
  rw [htype, hpasses]
  show Except.ok (firstOf (min limit mostEvents) _) = _
  rw [firstOf, if_pos hmost, ← List.map_reverse, ← List.map_take]
  rfl

/-! ## Round trip -/

/-- Storable events that were written are read back from their lines. -/
theorem isLegible_of_mem_writeAll (hwrite : s.writeAll files cwd events = .ok files')
    (he : e ∈ events) (hstorable : e.datum.Storable)
    (hfloats : ∀ x ∈ Datum.floats (.record e.context), Json.ReadsBack x) : IsLegible e := by
  obtain ⟨hint, hdepth⟩ := of_mem_writeAll hwrite he
  have hlegible := Json.legible_of_storable e.datum hstorable hint (e.floats_datum ▸ hfloats)
  exact ⟨Json.legible_sorted _ hlegible, hdepth⟩

/-- Sorting the fields of all events leaves the events the same. -/
theorem sameItems_events (h : ∀ e ∈ events, e.datum.Storable) :
    Datum.SameItems (events.map Event.datum) (events.map fun e => e.datum.sorted) := by
  induction events with
  | nil => rfl
  | cons e rest ih =>
      have hrest := ih fun e' he' => h e' (List.mem_cons_of_mem e he')
      have hproper := Datum.isProper_of_storable _ (h e List.mem_cons_self)
      exact ⟨_, _, rfl, Datum.same_sorted _ hproper, hrest⟩

/-- **What is written is read back.** Into a file that is missing at first, events are written one
after the other. If the file still fits into the tail, reading gives the events that pass the
filters, the most recent one first, up to the limit and to two thousand: each of them with all its
fields, and nothing else. The contexts of the events can hold all that can be stored, with doubles
that are read back from their own text. -/
theorem read_writeAll (hmissing : files.get? (Location.ofPath cwd s.path) = none)
    (hwrite : s.writeAll files cwd events = .ok files')
    (hstorable : ∀ e ∈ events, Datum.Storable (.record e.context))
    (hfloats : ∀ e ∈ events, ∀ x ∈ Datum.floats (.record e.context), Json.ReadsBack x)
    (hsize : ∀ bytes, files'.bytes? (Location.ofPath cwd s.path) = some bytes →
      (bytes.length : Int) ≤ s.tailBytes)
    (locking : Locking) (level type : Option String) {limit : Int} (hlimit : 0 ≤ limit) :
    ∃ found, s.read locking files' cwd level type limit = .ok found ∧
      Datum.SameItems
        (((events.filter (Event.passes level type)).reverse.take (min limit 2000).toNat).map
          Event.datum)
        found := by
  have hdatum : ∀ e ∈ events, e.datum.Storable := fun e he => Event.storable_datum (hstorable e he)
  have hlegible : ∀ e ∈ events, IsLegible e := fun e he =>
    isLegible_of_mem_writeAll hwrite he (hdatum e he) (hfloats e he)
  -- the file holds the lines of the events, and they are all read
  have hstart : Holds files cwd s [] := .inr ⟨hmissing, rfl⟩
  have hall : s.readAll locking files' cwd = .ok (events.map fun e => e.datum.sorted) := by
    rw [readAll_of_holds locking (hstart.writeAll hwrite) hsize, List.nil_append,
      parse_lines hlegible]
  refine ⟨_, read_of_readAll hall level type hlimit, sameItems_events fun e he => ?_⟩
  have he := List.mem_reverse.1 (List.mem_of_mem_take he)
  exact hdatum e (List.mem_filter.1 he).1

/-- The event of a batch, with a double in its context. -/
def batchEvent : Event :=
  .make "2024-01-02T03:04:05Z" .info .batchStarted "Batch of 2"
    [("count", .int 2), ("rate", .number (.float 0.5))]

/-- The event of a failure, with line ends, quotes and nested data in its context. -/
def failureEvent : Event :=
  .make "2024-01-02T03:04:06Z" .error .evalFailed "a\n-^"
    [("source", .text "a\u2028\x1c\""), ("error_kind", .record [("scan", .list [.null])])]
    (some "scan_error")

/-- A sink in the working directory, with a tail of the size of its file. -/
def twoEventSink : Sink :=
  ⟨⟨"", []⟩, (Text.Utf8.encode (line batchEvent) ++ Text.Utf8.encode (line failureEvent)).length⟩

/-- The failure alone is read from a file with both events if only errors are asked for. -/
theorem read_twoEvents :
    ∃ files', twoEventSink.writeAll [] [] [batchEvent, failureEvent] = .ok files' ∧
      ∃ found, twoEventSink.read .locked files' [] (some "error") none 5 = .ok found ∧
        Datum.SameItems [failureEvent.datum] found := by
  have hbatch : twoEventSink.write [] [] batchEvent =
      .ok [(["events.ndjson"], .file [Text.Utf8.encode (line batchEvent)])] :=
    write_eq_ok_iff.2 ⟨by decide +kernel, by decide, _, rfl, rfl⟩
  have hfailure : twoEventSink.write
      [(["events.ndjson"], .file [Text.Utf8.encode (line batchEvent)])] [] failureEvent =
      .ok [(["events.ndjson"], .file [Text.Utf8.encode (line failureEvent),
        Text.Utf8.encode (line batchEvent)])] :=
    write_eq_ok_iff.2 ⟨by decide +kernel, by decide, _, rfl, rfl⟩
  have hrest : twoEventSink.writeAll _ [] [failureEvent] = .ok _ := writeAll_cons hfailure
  have hwrite := (writeAll_cons hbatch).trans hrest
  have hstorable : ∀ e ∈ [batchEvent, failureEvent], Datum.Storable (.record e.context) := by
    intro e he
    rcases List.mem_cons.1 he with rfl | he
    · exact ⟨by decide, trivial, rfl, trivial⟩
    · obtain rfl := List.mem_singleton.1 he
      exact ⟨by decide, trivial, ⟨by decide, ⟨trivial, trivial⟩, trivial⟩, trivial⟩
  have hfloats : ∀ e ∈ [batchEvent, failureEvent], ∀ x ∈ Datum.floats (.record e.context),
      Json.ReadsBack x := by
    intro e he x hx
    rcases List.mem_cons.1 he with rfl | he
    · obtain rfl := List.mem_singleton.1 hx
      rfl
    · obtain rfl := List.mem_singleton.1 he
      cases hx
  have hread := read_writeAll rfl hwrite hstorable hfloats (fun bytes hbytes => by
    cases hbytes
    exact Int.le_of_eq (by simp [twoEventSink])) .locked (some "error") none
    (by decide : (0 : Int) ≤ 5)
  exact ⟨_, hwrite, hread⟩

end Sink

end Calculator
