import Calculator.Event.Journal
import Calculator.Proofs.Data.Canonical
import Calculator.Proofs.Event.Attribution

/-!
# The order of names in contexts

A log does not show in which order the names of a context came. Clipping keeps fields alike
(`alike_clip`), so does listing the names that an event lacks (`alike_loggedContext`), and an event
is written by its sorted form (`write_congr`). So events that differ in the order of names alone, at
any depth, are written by one line and do the same to journals and files (`emit_reordered`).
-/

set_option autoImplicit false

namespace Calculator

/-! ## Clipping -/

theorem sorted_clipPoints (ps : List Text.Point) : (clipPoints ps).sorted = clipPoints ps := by
  unfold clipPoints
  split
  · exact Datum.sorted_ofPoints _
  · rfl

mutual

/-- Clipping data and sorting its records can be done in any order. -/
theorem sorted_clipDatum : ∀ d : Datum, (clipDatum d).sorted = clipDatum d.sorted
  | .null => rfl
  | .bool _ => rfl
  | .number _ => rfl
  | .text _ => rfl
  | .torn ps => sorted_clipPoints ps
  | .list _ => rfl
  | .record fields => by
      -- the names, by which the fields are sorted, stay the same
      have hmerge := List.map_mergeSort (r := Fields.before) (s := Fields.before)
        (f := fun f : String × Datum => (f.1, clipDatum f.2)) (l := Datum.sortedFields fields)
        fun _ _ _ _ => rfl
      show _ = Datum.record (clip ((Datum.sortedFields fields).mergeSort Fields.before))
      rw [clip_eq_map, hmerge, ← clip_eq_map, ← sortedFields_clip fields]
      rfl

theorem sortedFields_clip : ∀ fields : Fields,
    Datum.sortedFields (clip fields) = clip (Datum.sortedFields fields)
  | [] => rfl
  | (_, d) :: rest => by
      rw [clip, Datum.sortedFields, sorted_clipDatum d, sortedFields_clip rest, Datum.sortedFields,
        clip]

end

theorem alike_clip {fields fields' : Fields} (h : fields.Alike fields') :
    Fields.Alike (clip fields) (clip fields') := by
  rw [Fields.Alike, sortedFields_clip, sortedFields_clip, clip_eq_map, clip_eq_map]
  exact h.map _

/-! ## Attribution -/

namespace Event

variable {e : Event} {context : Fields}

/-- Which names an event lacks does not depend on their order. -/
theorem missing_eq_of_alike (h : Fields.Alike e.context context) :
    missing { e with context } = e.missing := by
  refine List.filter_congr fun n _ => ?_
  rw [h.has_eq]

theorem alike_loggedContext (h : Fields.Alike e.context context) (hnames : e.context.names.Nodup) :
    Fields.Alike e.loggedContext (loggedContext { e with context }) := by
  have hclip := alike_clip h
  rw [loggedContext, loggedContext, missing_eq_of_alike h]
  split
  · exact hclip
  · -- the list of missing names may take the place of a value or come last, in each of the two
    rw [← names_clip] at hnames
    exact hclip.set hnames missingName _

/-- **Events whose contexts are alike have one sorted form when they are prepared.** -/
theorem sorted_prepared_of_alike (h : Fields.Alike e.context context)
    (hproper : Datum.IsProper (.record e.context)) :
    (prepared { e with context }).datum.sorted = e.prepared.datum.sorted := by
  have hcontext := (alike_loggedContext h hproper.1).sorted_eq (isProper_loggedContext hproper).1
  have hlevel : loggedLevel { e with context } = e.loggedLevel := by
    rw [loggedLevel, loggedLevel, missing_eq_of_alike h]
  rw [prepared_eq, prepared_eq, hlevel, datum, datum, Datum.sorted, Datum.sorted]
  simp only [fields, Datum.sortedFields, hcontext]

end Event

/-! ## Writing -/

variable {e e' : Event}

/-- The line of an event is read off its sorted form. -/
theorem Sink.line_congr (h : e.datum.sorted = e'.datum.sorted) : Sink.line e = Sink.line e' := by
  rw [line, line, h]

/-- What writing an event does depends on its sorted form alone. -/
theorem Sink.write_congr (h : e.datum.sorted = e'.datum.sorted) (files : Files) (cwd : Location)
    (s : Sink) : s.write files cwd e = s.write files cwd e' := by
  have hwritable : e.datum.isWritable = e'.datum.isWritable := by
    rw [← Datum.isWritable_sorted, h, Datum.isWritable_sorted]
  have hdepth : e.datum.depth = e'.datum.depth := by
    rw [← Datum.depth_sorted, h, Datum.depth_sorted]
  rw [write, write, hwritable, hdepth, line_congr h]

namespace Journal

theorem emit_congr (h : e.prepared.datum.sorted = e'.prepared.datum.sorted) (cwd : Location)
    (now : Rat) (j : Journal) (files : Files) :
    j.emit cwd now files e = j.emit cwd now files e' := by
  unfold emit
  cases j.sink with
  | none => rfl
  | some s =>
      dsimp only
      rw [Sink.write_congr h]

/-- **A log does not depend on the order of names.** Two events that are equal but for the order in
which the names in their contexts came, at whatever depth, have one line when they are logged, and
emitting them does the same to every journal and all files. -/
theorem emit_reordered (e : Event) (context : Fields)
    (hproper : Datum.IsProper (.record e.context))
    (hsame : Datum.Same (.record e.context) (.record context)) :
    Sink.line (Event.prepared { e with context }) = Sink.line e.prepared ∧
      ∀ (cwd : Location) (now : Rat) (j : Journal) (files : Files),
        j.emit cwd now files { e with context } = j.emit cwd now files e := by
  have halike := Datum.alike_of_same hproper hsame
  have hsorted := Event.sorted_prepared_of_alike halike hproper
  exact ⟨Sink.line_congr hsorted, emit_congr hsorted⟩

/-- An event with a text that is cut and with records inside, which does not say of what kind its
error is. -/
def nestedEvent : Event :=
  .make "2024-01-02T03:04:05Z" .error .evalFailed "division by zero"
    [("source", .text (String.ofList (List.replicate 300 '1'))),
     ("at", .record [("line", .int 1), ("column", .int 2)]),
     ("operands", .list [.record [("right", .int 0), ("left", .int 1)]])]

/-- The context of the event with its names in another order at every depth. -/
def nestedContext : Fields :=
  [("operands", .list [.record [("left", .int 1), ("right", .int 0)]]),
   ("at", .record [("column", .int 2), ("line", .int 1)]),
   ("source", .text (String.ofList (List.replicate 300 '1')))]

/-- The event is logged as a warning, and its line does not show the order. -/
theorem emit_reordered_nested :
    nestedEvent.missing = ["error_kind"] ∧
      Datum.Same (.record nestedEvent.context) (.record nestedContext) ∧
      Sink.line (Event.prepared { nestedEvent with context := nestedContext }) =
        Sink.line nestedEvent.prepared := by
  have hproper : Datum.IsProper (.record nestedEvent.context) :=
    ⟨by decide, trivial, ⟨by decide, trivial, trivial, trivial⟩,
      ⟨⟨by decide, trivial, trivial, trivial⟩, trivial⟩, trivial⟩
  have hat : Datum.Same (.record [("line", .int 1), ("column", .int 2)])
      (.record [("column", .int 2), ("line", .int 1)]) :=
    ⟨_, rfl, rfl, ⟨_, rfl, rfl⟩, ⟨_, rfl, rfl⟩, trivial⟩
  have hoperands : Datum.Same (.list [.record [("right", .int 0), ("left", .int 1)]])
      (.list [.record [("left", .int 1), ("right", .int 0)]]) :=
    ⟨_, rfl, _, _, rfl, ⟨_, rfl, rfl, ⟨_, rfl, rfl⟩, ⟨_, rfl, rfl⟩, trivial⟩, rfl⟩
  have hsame : Datum.Same (.record nestedEvent.context) (.record nestedContext) :=
    ⟨_, rfl, rfl, ⟨_, rfl, rfl⟩, ⟨_, rfl, hat⟩, ⟨_, rfl, hoperands⟩, trivial⟩
  exact ⟨by decide, hsame, (emit_reordered nestedEvent nestedContext hproper hsame).1⟩

end Journal

end Calculator
