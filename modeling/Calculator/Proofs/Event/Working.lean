import Calculator.Event.Journal
import Calculator.Proofs.Event.Decoding
import Calculator.Proofs.Storage.Standing

/-!
# Working sinks

A sink works if its directory is there or can be made, and no directory is in the place of its file.
An event is written exactly if the sink works and the event fits into a line (`exists_write_iff`),
and then it adds a line to the file and changes no other. If its names are unique, the event is read
back from this line (`logged_write`). A journal with a working sink therefore logs each event that
fits into a line (`emit_of_isWorking`); in all other cases it leaves the files alone
(`emit_of_not`).
-/

set_option autoImplicit false

namespace Calculator

/-! ## Appending -/

namespace Files

variable {files files' : Files} {path : String} {l m : Location} {bytes : List UInt8}

/-- Bytes can be appended wherever there is no directory. -/
theorem exists_append_iff :
    (∃ files', files.append path l bytes = .ok files') ↔ files.get? l ≠ some .directory := by
  unfold append
  cases hl : files.get? l with
  | none =>
      constructor
      · intro _ h
        cases h
      · intro _
        exact ⟨_, rfl⟩
  | some n =>
      cases n with
      | directory =>
          constructor
          · rintro ⟨files', h⟩
            cases h
          · intro h
            exact absurd rfl h
      | file pieces =>
          constructor
          · intro _ h
            cases h
          · intro _
            exact ⟨_, rfl⟩

/-- Appending sets a file in the place of what was there. -/
theorem append_eq_set (h : files.append path l bytes = .ok files') :
    ∃ pieces, files' = files.set l (.file pieces) := by
  unfold append at h
  split at h
  · cases h
  · cases h
    exact ⟨_, rfl⟩
  · cases h
    exact ⟨_, rfl⟩

theorem keeps_append (h : files.append path l bytes = .ok files') : Keeps files files' := by
  have hl := exists_append_iff.1 ⟨files', h⟩
  obtain ⟨pieces, rfl⟩ := append_eq_set h
  exact keeps_set hl

/-- Appending leaves all other files alone. -/
theorem bytes?_append_of_ne (h : files.append path l bytes = .ok files') (hm : m ≠ l) :
    files'.bytes? m = files.bytes? m := by
  obtain ⟨pieces, rfl⟩ := append_eq_set h
  rw [bytes?, bytes?, get?_set_of_ne hm]

end Files

/-! ## Sinks -/

namespace Sink

variable {files files' : Files} {cwd : Location} {s : Sink} {e : Event} {bytes : List UInt8}

/-- A sink that can write: its directory is there or can be made, and then no directory is in the
place of its file. -/
def IsWorking (files : Files) (cwd : Location) (s : Sink) : Prop :=
  ∃ between, files.makeDirectory cwd s.directory = .ok between ∧
    between.get? (Location.ofPath cwd s.path) ≠ some .directory

/-- A sink works whose directory is to be made. -/
theorem isWorking_logs (tailBytes : Int) : IsWorking [] [] ⟨⟨"", ["logs"]⟩, tailBytes⟩ := by
  have hmake : (Files.makeDirectory [] [] ⟨"", ["logs"]⟩).toOption =
      some [(["logs"], .directory)] := by decide +kernel
  unfold IsWorking
  cases hbetween : Files.makeDirectory [] [] ⟨"", ["logs"]⟩ with
  | error cause =>
      rw [hbetween] at hmake
      cases hmake
  | ok between =>
      rw [hbetween] at hmake
      obtain rfl := Option.some.inj hmake
      have hplace : Files.get? [(["logs"], .directory)]
          (Location.ofPath [] (Path.child ⟨"", ["logs"]⟩ fileName)) ≠ some .directory := by decide
      exact ⟨_, rfl, hplace⟩

/-- **An event is written exactly if it fits into a line and the sink works.** -/
theorem exists_write_iff :
    (∃ files', s.write files cwd e = .ok files') ↔ e.IsWritable ∧ s.IsWorking files cwd := by
  constructor
  · rintro ⟨files', h⟩
    obtain ⟨hintegers, hdepth, between, hmake, happend⟩ := write_eq_ok_iff.1 h
    exact ⟨⟨hintegers, hdepth⟩, between, hmake, Files.exists_append_iff.1 ⟨files', happend⟩⟩
  · rintro ⟨⟨hintegers, hdepth⟩, between, hmake, hplace⟩
    obtain ⟨files', happend⟩ := Files.exists_append_iff.2 hplace
    exact ⟨files', write_eq_ok_iff.2 ⟨hintegers, hdepth, between, hmake, happend⟩⟩

/-- A sink that has written an event works on: its directory stands, and in the place of its file is
a file. -/
theorem isWorking_of_write (h : s.write files cwd e = .ok files') : s.IsWorking files' cwd := by
  obtain ⟨-, -, between, hmake, happend⟩ := write_eq_ok_iff.1 h
  refine ⟨files', Files.makeDirectory_of_keeps hmake (Files.keeps_append happend), ?_⟩
  intro hdirectory
  have hbytes := Files.bytes?_append happend
  rw [Files.bytes?, hdirectory] at hbytes
  cases hbytes

/-- Writing an event leaves all other files alone. -/
theorem bytes?_write_of_ne {l : Location} (h : s.write files cwd e = .ok files')
    (hl : l ≠ Location.ofPath cwd s.path) : files'.bytes? l = files.bytes? l := by
  obtain ⟨-, -, between, hmake, happend⟩ := write_eq_ok_iff.1 h
  rw [Files.bytes?_append_of_ne happend hl, (Files.grown_makeDirectory hmake).bytes?_eq l]

/-- The file of a working sink holds some bytes, perhaps none. -/
theorem IsWorking.exists_holds (h : s.IsWorking files cwd) : ∃ bytes, s.Holds files cwd bytes := by
  obtain ⟨between, hmake, hplace⟩ := h
  have hgrown := Files.grown_makeDirectory hmake (Location.ofPath cwd s.path)
  cases hnode : files.get? (Location.ofPath cwd s.path) with
  | none => exact ⟨[], .inr ⟨hnode, rfl⟩⟩
  | some n =>
      cases n with
      | file pieces =>
          refine ⟨pieces.reverse.flatten, .inl ?_⟩
          rw [Files.bytes?, hnode]
          rfl
      | directory =>
          -- a directory in the place of the file would still be there
          rcases hgrown with hsame | ⟨hnone, -⟩
          · exact absurd (hsame.trans hnode) hplace
          · rw [hnode] at hnone
            cases hnone

/-- The file of a working sink has gone on with the lines of events, from which the events are read
back, all other files are as they were, and the sink goes on working. -/
structure Logged (files files' : Files) (cwd : Location) (s : Sink) (events : List Event) :
    Prop where
  isWorking : s.IsWorking files' cwd
  /-- The file held some bytes, perhaps none. -/
  held : ∃ bytes, s.Holds files cwd bytes
  /-- Whatever the file held before, the lines come behind it. -/
  holds : ∀ bytes, s.Holds files cwd bytes →
    s.Holds files' cwd (bytes ++ events.flatMap fun e => Text.Utf8.encode (line e))
  /-- Each event has one line. -/
  isLine : ∀ e ∈ events, IsLine (line e)
  /-- Each line decodes to its event. -/
  decodes : ∀ e ∈ events, ∃ found,
    Json.read (lineText e) = .ok (.record found) ∧ e.Decoded found
  others : ∀ l, l ≠ Location.ofPath cwd s.path → files'.bytes? l = files.bytes? l

theorem Logged.refl (h : s.IsWorking files cwd) : Logged files files cwd s [] where
  isWorking := h
  held := h.exists_holds
  holds bytes hbytes := by
    rw [List.flatMap_nil, List.append_nil]
    exact hbytes
  isLine _ he := nomatch he
  decodes _ he := nomatch he
  others _ _ := rfl

theorem Logged.trans {files'' : Files} {events events' : List Event}
    (h : Logged files files' cwd s events) (h' : Logged files' files'' cwd s events') :
    Logged files files'' cwd s (events ++ events') where
  isWorking := h'.isWorking
  held := h.held
  holds bytes hbytes := by
    rw [List.flatMap_append, ← List.append_assoc]
    exact h'.holds _ (h.holds bytes hbytes)
  isLine e _ := isLine_line e
  decodes := List.forall_mem_append.2 ⟨h.decodes, h'.decodes⟩
  others l hl := (h'.others l hl).trans (h.others l hl)

/-- Writing an event logs it, if no record in its context has a name twice. -/
theorem logged_write (hproper : Datum.IsProper (.record e.context))
    (h : s.write files cwd e = .ok files') : Logged files files' cwd s [e] where
  isWorking := isWorking_of_write h
  held := (exists_write_iff.1 ⟨files', h⟩).2.exists_holds
  holds bytes hbytes := by
    rw [List.flatMap_singleton]
    exact hbytes.write h
  isLine e _ := isLine_line e
  decodes := List.forall_mem_singleton.2
    (IsLogged.mk hproper (exists_write_iff.1 ⟨files', h⟩).1).exists_decoded
  others _ hl := bytes?_write_of_ne h hl

end Sink

/-! ## Journals -/

namespace Journal

variable {files : Files} {cwd : Location} {now : Rat} {j : Journal} {s : Sink} {e : Event}

/-- A journal without a sink does nothing. -/
theorem emit_of_none (h : j.sink = none) : j.emit cwd now files e = (j, files) := by
  rw [emit, h]

/-- An event that is written leaves the journal alone. -/
theorem emit_of_write {files' : Files} (now : Rat) (hsink : j.sink = some s)
    (hwrite : s.write files cwd e.prepared = .ok files') :
    j.emit cwd now files e = (j, files') := by
  rw [emit, hsink]
  dsimp only
  rw [hwrite]

/-- **A journal with a working sink logs each event that fits into a line**, and does nothing
else. -/
theorem emit_of_isWorking (now : Rat) (hsink : j.sink = some s) (hworks : s.IsWorking files cwd)
    (hlogged : Sink.IsLogged e.prepared) :
    ∃ files', j.emit cwd now files e = (j, files') ∧
      Sink.Logged files files' cwd s [e.prepared] := by
  obtain ⟨files', hwrite⟩ := Sink.exists_write_iff.2 ⟨hlogged.isWritable, hworks⟩
  exact ⟨files', emit_of_write now hsink hwrite, Sink.logged_write hlogged.isProper hwrite⟩

/-- **An event that is not written leaves the files alone.** -/
theorem emit_of_not (hsink : j.sink = some s)
    (h : ¬ (e.prepared.IsWritable ∧ s.IsWorking files cwd)) :
    ∃ j', j.emit cwd now files e = (j', files) ∧ j'.sink = j.sink := by
  rw [emit, hsink]
  dsimp only
  cases hwrite : s.write files cwd e.prepared with
  | ok files' => exact absurd (Sink.exists_write_iff.1 ⟨files', hwrite⟩) h
  | error cause =>
      refine ⟨_, rfl, ?_⟩
      -- a warning concerns no sink
      unfold warn
      split
      · exact hsink
      · exact hsink

end Journal

end Calculator
