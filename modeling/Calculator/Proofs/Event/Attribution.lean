import Calculator.Event.Clip
import Calculator.Proofs.Data.Proper

/-!
# Clipped and attributed events

Clipping a context changes none of its names (`clip_eq_map`) and keeps it proper (`isProper_clip`),
so an event lacks the same required names before and after it (`missing_clip`): those that its type
requires and its context has nothing under, in order (`lacks_missing`). An event that is prepared is
the event itself but for its level and its context (`prepared_eq`).
-/

set_option autoImplicit false

namespace Calculator

/-! ## Clipping -/

theorem clip_eq_map (fields : Fields) : clip fields = fields.map fun f => (f.1, clipDatum f.2) := by
  induction fields with
  | nil => rfl
  | cons f rest ih => rw [clip, ih, List.map_cons]

theorem names_clip (fields : Fields) : Fields.names (clip fields) = fields.names := by
  rw [clip_eq_map, Fields.names_map]

theorem get?_clip (fields : Fields) (name : String) :
    Fields.get? (clip fields) name = (fields.get? name).map clipDatum := by
  rw [clip_eq_map, Fields.get?_map]

theorem isProper_clipPoints {ps : List Text.Point} (h : Text.HasHalves ps) :
    (clipPoints ps).IsProper := by
  unfold clipPoints
  split
  · exact Datum.isProper_ofPoints ((h.take longestText).append (Text.hasHalves_points _))
  · exact h

mutual

/-- Data stays proper when it is clipped. -/
theorem isProper_clipDatum : ∀ d : Datum, d.IsProper → (clipDatum d).IsProper
  | .null, _ => trivial
  | .bool _, _ => trivial
  | .number _, _ => trivial
  | .text _, _ => trivial
  | .torn _, h => isProper_clipPoints h
  | .list _, h => h
  | .record fields, h => ⟨(names_clip fields).symm ▸ h.1, areProperFields_clip fields h.2⟩

theorem areProperFields_clip : ∀ fields : Fields, Datum.AreProperFields fields →
    Datum.AreProperFields (clip fields)
  | [], _ => trivial
  | (_, d) :: rest, h => ⟨isProper_clipDatum d h.1, areProperFields_clip rest h.2⟩

end

/-! ## Attribution -/

namespace Event

/-- The name under which an event lists the names that it lacks. -/
def missingName : String := "_missing_attribution"

/-- The names that an event lacks: in order, those that its type requires and its context has
nothing under. -/
structure Lacks (e : Event) (names : List String) : Prop where
  sorted : names.Pairwise (· < ·)
  mem_iff : ∀ n, n ∈ names ↔ n ∈ e.type.required ∧ e.context.get? n = none

theorem sorted_required (t : EventType) : t.required.Pairwise (· < ·) := by
  cases t with
  | evalCompleted | evalFailed | batchStarted | batchCompleted | replStarted => decide

/-- **What an event is said to lack is what it lacks.** -/
theorem lacks_missing (e : Event) : e.Lacks e.missing where
  sorted := (sorted_required e.type).filter _
  mem_iff n := by
    rw [missing, List.mem_filter, Fields.has]
    cases e.context.get? n with
    | none => simp
    | some d => simp

/-- Clipping the context of an event loses no name. -/
theorem missing_clip (e : Event) : missing { e with context := clip e.context } = e.missing := by
  refine List.filter_congr fun n _ => ?_
  show (!Fields.has (clip e.context) n) = !Fields.has e.context n
  rw [Fields.has, get?_clip, Option.isSome_map, Fields.has]

/-- The level at which an event is logged. -/
def loggedLevel (e : Event) : EventLevel := if e.missing = [] then e.level else .warning

/-- The context with which an event is logged. -/
def loggedContext (e : Event) : Fields :=
  if e.missing = [] then clip e.context
  else Fields.set (clip e.context) missingName (.list (e.missing.map .text))

/-- **Preparing an event changes its level and its context alone.** -/
theorem prepared_eq (e : Event) :
    e.prepared = { e with level := e.loggedLevel, context := e.loggedContext } := by
  rw [prepared, attributed, missing_clip, loggedLevel, loggedContext]
  cases e.missing with
  | nil => rfl
  | cons n names => rfl

variable {e : Event}

theorem isProper_loggedContext (h : Datum.IsProper (.record e.context)) :
    Datum.IsProper (.record e.loggedContext) := by
  have hclip : Datum.IsProper (.record (clip e.context)) := isProper_clipDatum _ h
  have htexts : ∀ names : List String, Datum.AreProper (names.map .text) := by
    intro names
    induction names with
    | nil => trivial
    | cons n rest ih => exact ⟨trivial, ih⟩
  rw [loggedContext]
  split
  · exact hclip
  · exact Datum.isProper_set hclip (htexts e.missing)

theorem get?_loggedContext {name : String} (h : name = missingName → e.missing = []) :
    e.loggedContext.get? name = Fields.get? (clip e.context) name := by
  rw [loggedContext]
  split
  · rfl
  · rename_i hmissing
    rw [Fields.get?_set, if_neg fun hname => hmissing (h hname)]

theorem get?_missingName (h : e.missing ≠ []) :
    e.loggedContext.get? missingName = some (.list (e.missing.map .text)) := by
  rw [loggedContext, if_neg h, Fields.get?_set, if_pos rfl]

end Event

end Calculator
