import Calculator.Proofs.Event.Attribution

/-!
# Clipped contexts

What is reached in a context by a path of names through its records (`Datum.reach`) is reached in
the clipped context as well, clipped (`reach_clipDatum`). A record keeps its names in their order, a
text of more than 256 characters is cut and marked, and all else stays as it is (`Clips`). So no
text that is reached has more than 270 characters. A text that has been cut is longer than the
limit, but cutting it again gives the same text (`cutPoints_cutPoints`), so clipping a context a
second time changes nothing (`clip_projects`).
-/

set_option autoImplicit false

namespace Calculator

/-! ## Paths -/

/-- What a path of names leads to through records. -/
def Datum.reach (d : Datum) : List String → Option Datum
  | [] => some d
  | name :: path =>
    match d with
    | .record fields => (Fields.get? fields name).bind fun d => d.reach path
    | _ => none

/-! ## Texts -/

/-- The points that are left of a text of points. -/
def cutPoints (ps : List Text.Point) : List Text.Point :=
  if 256 < ps.length then ps.take 256 ++ Text.points "...[truncated]".toList else ps

section Texts

variable {d : Datum} {ps : List Text.Point}

theorem length_cutPoints (h : 256 < ps.length) : (cutPoints ps).length = 270 := by
  have hmark : (Text.points "...[truncated]".toList).length = 14 := by decide
  rw [cutPoints, if_pos h, List.length_append, List.length_take, hmark]
  omega

theorem length_cutPoints_le (ps : List Text.Point) : (cutPoints ps).length ≤ 270 := by
  by_cases h : 256 < ps.length
  · exact Nat.le_of_eq (length_cutPoints h)
  · rw [cutPoints, if_neg h]
    omega

/-- **A text that has been cut is cut to itself**, though it is too long. -/
theorem cutPoints_cutPoints (ps : List Text.Point) : cutPoints (cutPoints ps) = cutPoints ps := by
  by_cases h : 256 < ps.length
  · have hlong : 256 < (cutPoints ps).length := by
      rw [length_cutPoints h]
      decide
    -- the mark is all that stands behind the limit, so the second cut puts back what it takes away
    have hfront : (cutPoints ps).take 256 = ps.take 256 := by
      rw [cutPoints, if_pos h]
      exact List.take_left' (by rw [List.length_take]; omega)
    rw [cutPoints, if_pos hlong, hfront, cutPoints, if_pos h]
  · rw [cutPoints, cutPoints, if_neg h, if_neg h]

/-- A text that is short enough stays as it is. -/
theorem clipDatum_of_short (hps : d.points? = some ps) (h : ¬ 256 < ps.length) :
    clipDatum d = d := by
  cases d with
  | text s =>
      obtain rfl := Option.some.inj hps
      rw [Text.points, List.length_map, String.length_toList] at h
      rw [clipDatum, clipText, longestText, if_neg h]
  | torn ps' =>
      obtain rfl := Option.some.inj hps
      rw [clipDatum, clipPoints, longestText, if_neg h]
  | null | bool b | number n | list items | record fields => cases hps

/-- A text that is too long becomes the text of what is left of it. -/
theorem clipDatum_of_long (hps : d.points? = some ps) (h : 256 < ps.length) :
    clipDatum d = .ofPoints (cutPoints ps) := by
  rw [cutPoints, if_pos h]
  cases d with
  | text s =>
      obtain rfl := Option.some.inj hps
      rw [Text.points, List.length_map, String.length_toList] at h
      have hpoints : (Text.points s.toList).take 256 ++ Text.points "...[truncated]".toList =
          Text.points (s.toList.take 256 ++ "...[truncated]".toList) := by
        rw [Text.points, Text.points, Text.points, List.map_append, List.map_take]
      rw [hpoints, Datum.ofPoints_points, String.ofList_append, String.ofList_toList, clipDatum,
        clipText, longestText, if_pos h, truncationMark]
  | torn ps' =>
      obtain rfl := Option.some.inj hps
      rw [clipDatum, clipPoints, longestText, if_pos h]
      rfl
  | null | bool b | number n | list items | record fields => cases hps

/-- Clipping cuts the points of a text, and makes no text of anything else. -/
theorem points?_clipDatum (d : Datum) : (clipDatum d).points? = d.points?.map cutPoints := by
  cases hps : d.points? with
  | some ps =>
      by_cases h : 256 < ps.length
      · rw [clipDatum_of_long hps h, Datum.points?_ofPoints]
        rfl
      · rw [clipDatum_of_short hps h, hps, Option.map_some, cutPoints, if_neg h]
  | none =>
      cases d with
      | text s => cases hps
      | torn ps => cases hps
      | null | bool b | number n | list items | record fields => rfl

/-- Clipping a text a second time changes nothing. -/
theorem clipDatum_clipDatum_of_points? (hps : d.points? = some ps) :
    clipDatum (clipDatum d) = clipDatum d := by
  by_cases h : 256 < ps.length
  · have hlong : 256 < (cutPoints ps).length := by
      rw [length_cutPoints h]
      decide
    rw [clipDatum_of_long hps h, clipDatum_of_long (Datum.points?_ofPoints _) hlong,
      cutPoints_cutPoints]
  · rw [clipDatum_of_short hps h, clipDatum_of_short hps h]

/-- No path goes on behind a text. -/
theorem reach_of_points? (hps : d.points? = some ps) (name : String) (path : List String) :
    d.reach (name :: path) = none := by
  cases d with
  | text s => rfl
  | torn ps' => rfl
  | null | bool b | number n | list items | record fields => cases hps

end Texts

/-! ## Data -/

/-- What becomes of data that is reached through records. -/
inductive Clips : Datum → Datum → Prop where
  /-- A record keeps its names in their order. -/
  | record {fields fields' : Fields} : fields'.names = fields.names →
      Clips (.record fields) (.record fields')
  /-- A text of at most 256 characters stays as it is. -/
  | short {d : Datum} {ps : List Text.Point} :
      d.points? = some ps → ps.length ≤ 256 → Clips d d
  /-- Of a longer text the first 256 characters are left, and a mark behind them. -/
  | cut {d d' : Datum} {ps : List Text.Point} : d.points? = some ps → 256 < ps.length →
      d'.points? = some (ps.take 256 ++ Text.points "...[truncated]".toList) → Clips d d'
  /-- What is neither a text nor a record stays as it is. -/
  | other {d : Datum} : d.points? = none → (∀ fields, d ≠ .record fields) → Clips d d

theorem clips_clipDatum (d : Datum) : Clips d (clipDatum d) := by
  cases hps : d.points? with
  | some ps =>
      by_cases h : 256 < ps.length
      · refine .cut hps h ?_
        rw [points?_clipDatum, hps, Option.map_some, cutPoints, if_pos h]
      · rw [clipDatum_of_short hps h]
        exact .short hps (Nat.le_of_not_lt h)
  | none =>
      cases d with
      | text s => cases hps
      | torn ps => cases hps
      | record fields => exact .record (names_clip fields)
      | null | bool b | number n | list items => exact .other rfl fun _ h => nomatch h

/-- **A path leads to the same in a clipped context**, clipped. -/
theorem reach_clipDatum (d : Datum) (path : List String) :
    (clipDatum d).reach path = (d.reach path).map clipDatum := by
  induction path generalizing d with
  | nil => rfl
  | cons name path ih =>
      cases d with
      | record fields =>
          show (Fields.get? (clip fields) name).bind (fun d => d.reach path) =
            ((Fields.get? fields name).bind fun d => d.reach path).map clipDatum
          rw [get?_clip]
          cases Fields.get? fields name with
          | none => rfl
          | some d => exact ih d
      | torn ps =>
          -- what is left of it may be a text of characters or not
          exact reach_of_points? (points?_clipDatum (.torn ps)) name path
      | null | bool b | number n | text s | list items => rfl

mutual

/-- Clipping a second time changes nothing. -/
theorem clipDatum_clipDatum : ∀ d : Datum, clipDatum (clipDatum d) = clipDatum d
  | .null => rfl
  | .bool _ => rfl
  | .number _ => rfl
  | .text _ => clipDatum_clipDatum_of_points? rfl
  | .torn _ => clipDatum_clipDatum_of_points? rfl
  | .list _ => rfl
  | .record fields => congrArg Datum.record (clip_clip fields)

theorem clip_clip : ∀ fields : Fields, clip (clip fields) = clip fields
  | [] => rfl
  | (_, d) :: rest => by rw [clip, clip, clipDatum_clipDatum d, clip_clip rest]

end

/-- **Clipping a context is a bounded projection that keeps its structure.** What a path of names
leads to becomes what `Clips` says, and where a path leads nowhere, it leads nowhere in the clipped
context. No text that is reached there has more than 270 characters. Clipping twice is clipping
once. -/
theorem clip_projects (context : Fields) :
    (∀ path, Option.Rel Clips ((Datum.record context).reach path)
      ((Datum.record (clip context)).reach path)) ∧
    (∀ path d ps, (Datum.record (clip context)).reach path = some d → d.points? = some ps →
      ps.length ≤ 270) ∧
    clip (clip context) = clip context := by
  have hreach (path : List String) : (Datum.record (clip context)).reach path =
      ((Datum.record context).reach path).map clipDatum := reach_clipDatum (.record context) path
  refine ⟨fun path => ?_, fun path d ps hd hps => ?_, clip_clip context⟩
  · -- what is reached has been clipped, and nothing is reached where nothing was before
    rw [hreach]
    cases (Datum.record context).reach path with
    | none => exact .none
    | some d => exact .some (clips_clipDatum d)
  · rw [hreach] at hd
    obtain ⟨d', -, rfl⟩ := Option.map_eq_some_iff.1 hd
    rw [points?_clipDatum] at hps
    obtain ⟨ps', -, rfl⟩ := Option.map_eq_some_iff.1 hps
    exact length_cutPoints_le ps'

/-- A text inside a record that is one character too long has 270 characters when it is cut, and is
not cut any further. -/
theorem clip_projects_nested :
    let text := String.ofList (List.replicate 257 '1')
    let context : Fields := [("at", .record [("line", .int 1), ("source", .text text)])]
    ∃ d ps, (Datum.record (clip context)).reach ["at", "source"] = some d ∧ d.points? = some ps ∧
      ps.length = 270 ∧ ps.length ≤ 270 ∧ clip (clip context) = clip context := by
  intro text context
  obtain ⟨-, hbounded, htwice⟩ := clip_projects context
  have hreach : (Datum.record (clip context)).reach ["at", "source"] =
      some (clipDatum (.text text)) := rfl
  have hpoints : (clipDatum (.text text)).points? = some (cutPoints (Text.points text.toList)) :=
    points?_clipDatum (.text text)
  have hlong : 256 < (Text.points text.toList).length := by
    rw [Text.points, List.length_map, String.toList_ofList, List.length_replicate]
    decide
  exact ⟨_, _, hreach, hpoints, length_cutPoints hlong, hbounded _ _ _ hreach hpoints, htwice⟩

end Calculator
