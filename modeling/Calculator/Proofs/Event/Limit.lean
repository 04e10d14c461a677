import Calculator.Proofs.Event.Tolerance

/-!
# Limits of requests

A request has a limit, which can be any integer, and what is read is always at the front of all data
that passes its filters, the most recent data first (`latest_isPrefix`). A limit that is not
negative is an upper bound, as is the most that is read at once. A negative limit is neither: it
leaves out as much data as it says at the other end, and so much is read of a long log that both
bounds are exceeded (`length_latest`). So a larger limit shows no less data, unless the smaller one
alone is negative and the log is long (`read_limited`).
-/

set_option autoImplicit false

namespace Calculator.Sink

variable {files : Files} {cwd : Location} {s : Sink} {bytes : List UInt8}
  {level type : Option String}

/-! ## Fronts -/

theorem firstOf_isPrefix {α : Type} (n : Int) (xs : List α) : firstOf n xs <+: xs := by
  rw [firstOf]
  split
  · exact List.take_prefix _ _
  · exact List.take_prefix _ _

/-- A negative number counts from the end. -/
theorem length_firstOf {α : Type} (n : Int) (xs : List α) :
    ((firstOf n xs).length : Int) =
      if 0 ≤ n then min n xs.length else max (xs.length + n) 0 := by
  rw [firstOf]
  split
  · rw [List.length_take]
    omega
  · rw [List.length_take]
    omega

/-! ## Answers -/

/-- All data that passes the filters of a request, the last one first. -/
def mostRecent (level type : Option String) (all : List Datum) : List Datum :=
  (all.filter (passes level type)).reverse

/-- An answer is at the front of all data that passes. -/
theorem latest_isPrefix (level type : Option String) (limit : Int) (all : List Datum) :
    latest level type limit all <+: mostRecent level type all :=
  firstOf_isPrefix _ _

/-- **The length of an answer**, by the sign of the limit. -/
theorem length_latest (level type : Option String) (limit : Int) (all : List Datum) :
    ((latest level type limit all).length : Int) =
      if 0 ≤ limit then min (min limit mostEvents) (mostRecent level type all).length
      else max ((mostRecent level type all).length + limit) 0 := by
  have hmost : (0 : Int) ≤ mostEvents := by decide
  have hlength := length_firstOf (min limit mostEvents) (mostRecent level type all)
  rw [mostRecent] at hlength ⊢
  rw [latest, hlength]
  by_cases hlimit : 0 ≤ limit
  · rw [if_pos hlimit, if_pos (Int.le_min.2 ⟨hlimit, hmost⟩)]
  · rw [if_neg hlimit, if_neg (by omega)]
    omega

/-! ## Bounds -/

section Bounds

variable {all : List Datum} {limit limit' : Int}

/-- An answer is no longer than its limit unless the limit is negative and the log is long. -/
theorem length_latest_le_limit_iff :
    ((latest level type limit all).length : Int) ≤ max limit 0 ↔
      0 ≤ limit ∨ ((mostRecent level type all).length : Int) ≤ -limit := by
  rw [length_latest]
  split <;> omega

/-- The most that is read at once bounds an answer in the same way. -/
theorem length_latest_le_mostEvents_iff :
    ((latest level type limit all).length : Int) ≤ mostEvents ↔
      0 ≤ limit ∨ (mostRecent level type all).length + limit ≤ mostEvents := by
  have hmost : (0 : Int) ≤ mostEvents := by decide
  rw [length_latest]
  split <;> omega

/-- A larger limit gives no shorter answer, unless it is not negative, the smaller one is, and the
log is long. -/
theorem length_latest_le_iff (h : limit ≤ limit') :
    (latest level type limit all).length ≤ (latest level type limit' all).length ↔
      0 ≤ limit ∨ limit' < 0 ∨
        (mostRecent level type all).length + limit ≤ min limit' mostEvents := by
  have hmost : (0 : Int) ≤ mostEvents := by decide
  rw [← Int.ofNat_le, length_latest, length_latest]
  split
  · rw [if_pos (by omega)]
    omega
  · split <;> omega

end Bounds

/-- **A limit bounds what is read exactly if it is not negative or the log is short.** A log whose
lines hold records, or nothing, is read by all filters and with all limits, and what is read is
always at the front of all records that pass the filters, the most recent first. It has as many of
them as the limit and the most that is read at once allow, but for a negative limit all except so
many. So the limit bounds the number of records, a negative one as zero does, unless it is negative
and there are more records than it leaves out; the most that is read at once bounds it unless the
limit is negative and still leaves more; and a larger limit shows no fewer records, unless the
smaller limit alone is negative and leaves more than the larger one allows. -/
theorem read_limited (locking : Locking) (h : Holds files cwd s bytes) (hsize : 0 ≤ s.tailBytes)
    (hlines : ∀ l ∈ trimmedLines (tail s.tailBytes.toNat bytes), IsTolerable l)
    (level type : Option String) :
    let full := mostRecent level type (recordsIn (tail s.tailBytes.toNat bytes))
    ∃ answer : Int → List Datum,
      (∀ limit, s.read locking files cwd level type limit = .ok (answer limit) ∧
        answer limit <+: full) ∧
      (∀ limit, ((answer limit).length : Int) =
        if 0 ≤ limit then min (min limit mostEvents) full.length
        else max (full.length + limit) 0) ∧
      (∀ limit, ((answer limit).length : Int) ≤ max limit 0 ↔
        0 ≤ limit ∨ (full.length : Int) ≤ -limit) ∧
      (∀ limit, ((answer limit).length : Int) ≤ mostEvents ↔
        0 ≤ limit ∨ full.length + limit ≤ mostEvents) ∧
      ∀ limit limit', limit ≤ limit' →
        ((answer limit).length ≤ (answer limit').length ↔
          0 ≤ limit ∨ limit' < 0 ∨ full.length + limit ≤ min limit' mostEvents) := by
  have hreadable := fun l hl => (hlines l hl).isReadable
  have hrecords := (forall_isRecord_iff hreadable).2 hlines
  have hread (limit : Int) : s.read locking files cwd level type limit =
      .ok (latest level type limit (recordsIn (tail s.tailBytes.toNat bytes))) := by
    rw [recordsIn, List.filter_eq_self.2 hrecords]
    exact (read_eq_ok_iff_lines h hsize).2 ⟨hreadable, fun _ => hlines, rfl⟩
  refine ⟨fun limit => latest level type limit (recordsIn (tail s.tailBytes.toNat bytes)), ?_⟩
  refine ⟨fun limit => ⟨hread limit, latest_isPrefix level type limit _⟩, ?_, ?_, ?_, ?_⟩
  · exact fun limit => length_latest level type limit _
  · exact fun limit => length_latest_le_limit_iff
  · exact fun limit => length_latest_le_mostEvents_iff
  · exact fun limit limit' hle => length_latest_le_iff hle

/-- A record that has a level and nothing else. -/
def levelRecord : Datum := .record [("level", .text "info")]

/-- The bytes of a log with two such records. -/
def twoLevelBytes : List UInt8 := Text.Utf8.encode (levelLine ++ '\n' :: levelLine ++ ['\n'])

/-- The files of this log. -/
def twoLevelFiles : Files :=
  [(["logs"], .directory), (["logs", fileName], .ofBytes twoLevelBytes)]

theorem holds_twoLevelFiles : Holds twoLevelFiles [] scalarSink twoLevelBytes :=
  .inl (Node.bytes?_ofBytes _)

theorem tail_twoLevelBytes : tail scalarSink.tailBytes.toNat twoLevelBytes = twoLevelBytes :=
  if_pos (by decide)

theorem parse_twoLevelBytes : parse twoLevelBytes = .ok [levelRecord, levelRecord] := by
  have hascii : (levelLine ++ '\n' :: levelLine ++ ['\n']).all
      (fun c => decide (c.toNat < 0x80)) = true := rfl
  rw [parse, twoLevelBytes, Text.Utf8.decodeLossy_encode fun c hc =>
    of_decide_eq_true (List.all_eq_true.1 hascii c hc)]
  rfl

/-- Of two records that pass a filter the limit -1 leaves out one, and the limit 1 the other. -/
theorem read_limited_twoLevels :
    (∀ l ∈ trimmedLines (tail scalarSink.tailBytes.toNat twoLevelBytes), IsTolerable l) ∧
      scalarSink.read .locked twoLevelFiles [] (some "info") none (-1) = .ok [levelRecord] ∧
      scalarSink.read .locked twoLevelFiles [] (some "info") none 1 = .ok [levelRecord] := by
  obtain ⟨hreadable, hdata⟩ := parse_eq_ok_iff.1 parse_twoLevelBytes
  have hrecords : ∀ d ∈ dataIn twoLevelBytes, d.isRecord = true := by
    rw [← hdata]
    exact List.forall_mem_cons.2 ⟨rfl, List.forall_mem_singleton.2 rfl⟩
  have hlines : ∀ l ∈ trimmedLines (tail scalarSink.tailBytes.toNat twoLevelBytes),
      IsTolerable l := by
    rw [tail_twoLevelBytes]
    exact (forall_isRecord_iff hreadable).1 hrecords
  obtain ⟨answer, hanswer, hlength, -⟩ :=
    read_limited .locked holds_twoLevelFiles (by decide) hlines (some "info") none
  rw [tail_twoLevelBytes, recordsIn, List.filter_eq_self.2 hrecords, ← hdata] at hanswer hlength
  have hone {limit : Int} (hlimit : (answer limit).length = 1) :
      scalarSink.read .locked twoLevelFiles [] (some "info") none limit = .ok [levelRecord] := by
    obtain ⟨hread, hfront⟩ := hanswer limit
    rw [hread, List.prefix_iff_eq_take.1 hfront, hlimit]
    rfl
  exact ⟨hlines, hone (Int.ofNat.inj (hlength (-1))), hone (Int.ofNat.inj (hlength 1))⟩

/-- **A negative limit is exceeded, and a larger one shows less.** Of two records one is read with
the limit -1, and none with the limit zero. -/
theorem read_twoLevels_negative :
    scalarSink.read .locked twoLevelFiles [] none none (-1) = .ok [levelRecord] ∧
      scalarSink.read .locked twoLevelFiles [] none none 0 = .ok [] := by
  have hall : scalarSink.readAll .locked twoLevelFiles [] = .ok [levelRecord, levelRecord] := by
    rw [readAll_tail .locked holds_twoLevelFiles (by decide), tail_twoLevelBytes,
      parse_twoLevelBytes]
  constructor
  · rw [read, hall]
    rfl
  · rw [read, hall]
    rfl

end Calculator.Sink
