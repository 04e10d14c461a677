import Calculator.Command.Call
import Calculator.Proofs.Settings.Acceptance
import Calculator.Proofs.Yaml.Notation

/-!
# How a settings file is refused

A mapping that is not as a settings file should be is refused. Of keys that name no setting the
report shows all in order, so it can only be made if they have an order (`AreOrderable`), and what
it shows must be writable. Then the report names the file; otherwise the failure is the one that
kept it from being made, which names nothing (`ofValue_refusal`). Only keys without an order make a
run fail without a report.
-/

set_option autoImplicit false

namespace Calculator

open Yaml (Value)

/-! ## Keys in order -/

/-- The classes of keys within which there is an order. Moments are dates, or have a time of day
which is that of a known zone or not. -/
inductive KeyClass where
  | number
  | text
  | bytes
  | moment (zoned : Option Bool)
deriving DecidableEq

namespace Yaml

/-- Whether the zone of a moment is known, if it has a time of day. -/
def Moment.zoned? (m : Moment) : Option Bool := m.clock.map (·.offset.isSome)

theorem Moment.unordered?_eq_none_iff {s t : Moment} :
    s.unordered? t = none ↔ s.zoned? = t.zoned? := by
  unfold unordered? zoned?
  cases s.clock with
  | none =>
      cases t.clock with
      | none => simp
      | some d => simp
  | some c =>
      cases t.clock with
      | none => simp
      | some d => simp

/-- The class of a key, unless it cannot be put in order with any other one. -/
def Value.keyClass? : Value → Option KeyClass
  | bool _ | int _ | float _ => some .number
  | text _ | torn _ => some .text
  | bytes _ => some .bytes
  | moment m => some (.moment m.zoned?)
  | _ => none

theorem Value.isSome_points?_iff {v : Value} :
    v.points?.isSome = true ↔ v.keyClass? = some .text := by
  cases v <;> simp [points?, keyClass?]

theorem Value.isSome_number?_iff {v : Value} :
    v.number?.isSome = true ↔ v.keyClass? = some .number := by
  cases v <;> simp [number?, keyClass?]

theorem Value.exists_bytes {v : Value} (h : v.keyClass? = some .bytes) : ∃ bs, v = bytes bs := by
  cases v with
  | bytes bs => exact ⟨bs, rfl⟩
  | _ => cases h

theorem Value.exists_moment {v : Value} {zoned : Option Bool}
    (h : v.keyClass? = some (.moment zoned)) : ∃ m, v = moment m := by
  cases v with
  | moment m => exact ⟨m, rfl⟩
  | _ => cases h

end Yaml

namespace Settings

/-- The keys can be put in order: there is only one, or they are of one class. -/
def AreOrderable (keys : List Value) : Prop :=
  keys.length ≤ 1 ∨ ∃ c, ∀ k ∈ keys, k.keyClass? = some c

/-- Two keys have an order if they are of one class. -/
theorem unorderable?_eq_none_iff {a b : Value} :
    unorderable? a b = none ↔ ∃ c, a.keyClass? = some c ∧ b.keyClass? = some c := by
  unfold unorderable?
  split
  · rename_i s t
    rw [Option.map_eq_none_iff, Yaml.Moment.unordered?_eq_none_iff]
    simp only [Value.keyClass?, Option.some.injEq, exists_eq_left', KeyClass.moment.injEq]
    exact eq_comm
  · exact ⟨fun _ => ⟨.bytes, rfl, rfl⟩, fun _ => rfl⟩
  · rename_i hmoments hbytes
    rw [ite_eq_left_iff, Bool.or_eq_true, Bool.and_eq_true, Bool.and_eq_true,
      Value.isSome_points?_iff, Value.isSome_points?_iff, Value.isSome_number?_iff,
      Value.isSome_number?_iff]
    simp only [reduceCtorEq, imp_false, Classical.not_not]
    constructor
    · rintro (h | h)
      · exact ⟨_, h⟩
      · exact ⟨_, h⟩
    · rintro ⟨c, ha, hb⟩
      -- two moments and two sequences of bytes have been compared before
      cases c with
      | text => exact .inl ⟨ha, hb⟩
      | number => exact .inr ⟨ha, hb⟩
      | bytes =>
          obtain ⟨s, rfl⟩ := Value.exists_bytes ha
          obtain ⟨t, rfl⟩ := Value.exists_bytes hb
          exact absurd rfl (hbytes s t rfl)
      | moment zoned =>
          obtain ⟨s, rfl⟩ := Value.exists_moment ha
          obtain ⟨t, rfl⟩ := Value.exists_moment hb
          exact absurd rfl (hmoments s t rfl)

/-- Comparing keys without an order is a failure of its own kind. -/
theorem kind_of_unorderable {a b : Value} {cause : Failure} (h : unorderable? a b = some cause) :
    cause.kind = .type := by
  unfold unorderable? at h
  split at h
  · obtain ⟨complaint, -, rfl⟩ := Option.map_eq_some_iff.1 h
    rfl
  · cases h
  · split at h
    · cases h
    · cases h
      rfl

theorem firstUnorderable?_cons_cons {a b : Value} {rest : List Value} :
    firstUnorderable? (a :: b :: rest) = (unorderable? a b).or (firstUnorderable? (b :: rest)) := by
  rw [firstUnorderable?]
  cases unorderable? a b with
  | none => rfl
  | some cause => rfl

theorem firstUnorderable?_eq_none_iff {keys : List Value} :
    firstUnorderable? keys = none ↔ AreOrderable keys := by
  induction keys with
  | nil => exact ⟨fun _ => .inl (Nat.zero_le 1), fun _ => rfl⟩
  | cons a rest ih =>
      cases rest with
      | nil => exact ⟨fun _ => .inl (Nat.le_refl 1), fun _ => rfl⟩
      | cons b rest =>
          rw [firstUnorderable?_cons_cons, Option.or_eq_none_iff, ih, unorderable?_eq_none_iff]
          constructor
          · rintro ⟨⟨c, ha, hb⟩, hrest | ⟨c', hrest⟩⟩
            · obtain rfl : rest = [] := by simpa using hrest
              refine .inr ⟨c, ?_⟩
              simp [ha, hb]
            · obtain rfl : c' = c := by
                rw [hrest b List.mem_cons_self] at hb
                exact Option.some.inj hb
              exact .inr ⟨c', List.forall_mem_cons.2 ⟨ha, hrest⟩⟩
          · rintro (hlength | ⟨c, hall⟩)
            · simp at hlength
            · obtain ⟨ha, hrest⟩ := List.forall_mem_cons.1 hall
              exact ⟨⟨c, ha, hrest b List.mem_cons_self⟩, .inr ⟨c, hrest⟩⟩

theorem kind_of_firstUnorderable {keys : List Value} {cause : Failure}
    (h : firstUnorderable? keys = some cause) : cause.kind = .type := by
  induction keys with
  | nil => cases h
  | cons a rest ih =>
      cases rest with
      | nil => cases h
      | cons b rest =>
          rw [firstUnorderable?_cons_cons] at h
          rcases Option.or_eq_some_iff.1 h with hpair | ⟨-, hrest⟩
          · exact kind_of_unorderable hpair
          · exact ih hrest

/-! ## Reports -/

/-- A report on a settings file, or the failure to write one of the values that it shows. -/
inductive Reports (path : String) (shown : List Value) : Failure → Prop where
  | named {complaint : String} : (∀ v ∈ shown, v.IsWritable) →
      Reports path shown (.settings path complaint)
  | tooLong {v : Value} : v ∈ shown → ¬ v.IsWritable → Reports path shown .digitsWritten

theorem Reports.kind_eq {path : String} {shown : List Value} {cause : Failure}
    (h : Reports path shown cause) : cause.kind = .value := by
  cases h with
  | named => rfl
  | tooLong => rfl

theorem Reports.names_iff {path : String} {shown : List Value} {cause : Failure}
    (h : Reports path shown cause) :
    (∃ complaint, cause = .settings path complaint) ↔ ∀ v ∈ shown, v.IsWritable := by
  cases h with
  | named hall => exact ⟨fun _ => hall, fun _ => ⟨_, rfl⟩⟩
  | tooLong hv hlong => exact ⟨fun ⟨_, h⟩ => (nomatch h), fun hall => absurd (hall _ hv) hlong⟩

variable {cwd : Location} {file : Path} {path : String} {entries : List (Value × Value)}

/-- The values that the report on a refused mapping shows: all unknown keys, or else the first value
of another type. -/
def shownValues (entries : List (Value × Value)) : List Value :=
  if unknownKeys entries ≠ [] then unknownKeys entries
  else ((entries.find? misfits).map (·.2)).toList

/-- Unknown keys that can be put in order are reported. -/
theorem checkKeys_reports (path : String) (h : unknownKeys entries ≠ [])
    (horder : AreOrderable (unknownKeys entries)) :
    ∃ cause, checkKeys path entries = .error cause ∧ Reports path (unknownKeys entries) cause := by
  have hsort : sortKeys (unknownKeys entries) =
      .ok ((unknownKeys entries).mergeSort keyUpTo) := by
    rw [sortKeys, firstUnorderable?_eq_none_iff.2 horder]
  -- all keys are shown, in another order
  have hshown : (Value.list ((unknownKeys entries).mergeSort keyUpTo)).IsWritable ↔
      ∀ k ∈ unknownKeys entries, k.IsWritable := by
    simp only [Value.isWritable_list_iff, List.mem_mergeSort]
  unfold checkKeys
  by_cases hwritable : ∀ k ∈ unknownKeys entries, k.IsWritable
  · obtain ⟨shown, hwritten⟩ := Value.exists_written_iff.2 (hshown.2 hwritable)
    refine ⟨.settings path s!"unknown config keys: {shown}", (if_pos h).trans ?_,
      .named hwritable⟩
    show sortKeys (unknownKeys entries) >>= _ = _
    rw [hsort]
    show (Value.list ((unknownKeys entries).mergeSort keyUpTo)).written >>= _ = _
    rw [hwritten]
    rfl
  · obtain ⟨k, hk, hlong⟩ : ∃ k ∈ unknownKeys entries, ¬ k.IsWritable := by
      simpa using hwritable
    refine ⟨_, (if_pos h).trans ?_, .tooLong hk hlong⟩
    show sortKeys (unknownKeys entries) >>= _ = _
    rw [hsort]
    show (Value.list ((unknownKeys entries).mergeSort keyUpTo)).written >>= _ = _
    rw [Value.written_eq_error fun hall => hwritable (hshown.1 hall)]
    rfl

/-- Unknown keys without an order are not reported. -/
theorem checkKeys_unordered (path : String) (h : ¬ AreOrderable (unknownKeys entries)) :
    ∃ cause, checkKeys path entries = .error cause ∧ cause.kind = .type := by
  have hne : unknownKeys entries ≠ [] := by
    intro hnil
    exact h (.inl (by rw [hnil]; exact Nat.zero_le 1))
  cases hfirst : firstUnorderable? (unknownKeys entries) with
  | none => exact absurd (firstUnorderable?_eq_none_iff.1 hfirst) h
  | some cause =>
      refine ⟨cause, ?_, kind_of_firstUnorderable hfirst⟩
      unfold checkKeys
      refine (if_pos hne).trans ?_
      show sortKeys (unknownKeys entries) >>= _ = _
      rw [sortKeys, hfirst]
      rfl

/-- An entry with a value of another type is reported. -/
theorem checkType_reports (path : String) {e : Value × Value} (h : misfits e) :
    ∃ cause, checkType path e = .error cause ∧ Reports path [e.2] cause := by
  obtain ⟨k, v⟩ := e
  obtain ⟨type, htype, hfit⟩ := misfits_iff.1 h
  obtain ⟨name, rfl, -⟩ := typeOf?_eq_some htype
  unfold checkType
  simp only [htype, hfit]
  by_cases hwritable : v.IsWritable
  · obtain ⟨value, hwritten⟩ := Value.exists_written_iff.2 hwritable
    refine ⟨.settings path s!"{Text.quoted name} must be {type.wording}, got {value}", ?_,
      .named (List.forall_mem_singleton.2 hwritable)⟩
    show v.written >>= _ = _
    rw [hwritten]
    rfl
  · refine ⟨_, ?_, .tooLong List.mem_cons_self hwritable⟩
    show v.written >>= _ = _
    rw [Value.written_eq_error hwritable]
    rfl

/-- The first entry with a value of another type is reported. -/
theorem checkTypes_reports (path : String) {e : Value × Value}
    (h : entries.find? misfits = some e) :
    ∃ cause, entries.forM (checkType path) = .error cause ∧ Reports path [e.2] cause := by
  induction entries with
  | nil => cases h
  | cons first rest ih =>
      rw [List.find?_cons] at h
      cases hfirst : misfits first with
      | true =>
          rw [hfirst] at h
          obtain rfl := Option.some.inj h
          obtain ⟨cause, hcheck, hreports⟩ := checkType_reports path hfirst
          refine ⟨cause, ?_, hreports⟩
          show checkType path first >>= _ = _
          rw [hcheck]
          rfl
      | false =>
          rw [hfirst] at h
          obtain ⟨cause, hcheck, hreports⟩ := ih h
          refine ⟨cause, ?_, hreports⟩
          show checkType path first >>= (fun _ => rest.forM (checkType path)) = _
          rw [checkType_of_not_misfits hfirst]
          exact hcheck

/-- A nesting limit is refused by a report on the file. -/
theorem depthOf_eq_error {cause : Failure} (h : depthOf path entries = .error cause) :
    ∃ complaint, cause = .settings path complaint := by
  unfold depthOf at h
  split at h
  · split at h
    · cases h
      exact ⟨_, rfl⟩
    · split at h
      · cases h
      · cases h
        exact ⟨_, rfl⟩
  · cases h

/-- **A mapping that is not as it should be is reported**, if its unknown keys have an order; else
the keys cannot be compared. -/
theorem accept_refusal (path : String) (hdistinct : Value.HasDistinctKeys entries)
    (h : ¬ AreDocumented entries) :
    ∃ cause, accept path (.mapping entries) = .error cause ∧
      (AreOrderable (unknownKeys entries) → Reports path (shownValues entries) cause) ∧
      (¬ AreOrderable (unknownKeys entries) → cause.kind = .type) := by
  -- the first check that fails decides: keys first, then types, then the nesting limit
  rw [accept_mapping]
  by_cases horder : AreOrderable (unknownKeys entries)
  · by_cases hknown : unknownKeys entries = []
    · rw [checkKeys_of_known hknown, shownValues, if_neg fun hne => hne hknown]
      cases hmisfit : entries.find? misfits with
      | some e =>
          obtain ⟨cause, hcheck, hreports⟩ := checkTypes_reports path hmisfit
          refine ⟨cause, ?_, fun _ => hreports, fun hnot => absurd horder hnot⟩
          show entries.forM (checkType path) >>= _ = _
          rw [hcheck]
          rfl
      | none =>
          have hfits := forall_fits_iff.2 ⟨hknown, hmisfit⟩
          have hrange : ¬ ∃ limit, depthOf path entries = .ok limit := fun hdepth =>
            h ⟨hfits, (exists_depth_iff path hfits hdistinct).1 hdepth⟩
          cases hdepth : depthOf path entries with
          | ok limit => exact absurd ⟨limit, hdepth⟩ hrange
          | error cause =>
              obtain ⟨complaint, rfl⟩ := depthOf_eq_error hdepth
              refine ⟨.settings path complaint, ?_, fun _ => .named (List.forall_mem_nil _),
                fun hnot => absurd horder hnot⟩
              rw [checkTypes_of_none hmisfit]
              rfl
    · obtain ⟨cause, hcheck, hreports⟩ := checkKeys_reports path hknown horder
      rw [shownValues, if_pos hknown, hcheck]
      exact ⟨cause, rfl, fun _ => hreports, fun hnot => absurd horder hnot⟩
  · obtain ⟨cause, hcheck, hkind⟩ := checkKeys_unordered path horder
    rw [hcheck]
    exact ⟨cause, rfl, fun hyes => absurd hyes horder, fun _ => hkind⟩

/-- The document of a settings file. -/
def document (files : Files) (cwd : Location) (file : Path) : Except Failure Value := do
  let bytes ← files.read cwd file.text
  let s ← sourceOfBytes bytes
  Yaml.read s

theorem load_eq_ofValue {files : Files} {v : Value} (h : document files cwd file = .ok v) :
    load files cwd file = ofValue cwd file v := by
  have hload : load files cwd file = document files cwd file >>= ofValue cwd file := by
    simp only [load, document, bind_assoc]
  rw [hload, h]
  rfl

/-- **How a settings file is refused.** A mapping that is not as a settings file should be is
refused. The failure is a refusal of values, which a run reports, exactly if the unknown keys can be
put in order, and it names the file exactly if, besides, the values that are shown can be written.
Where the keys have no order the failure is one of types, and the run fails by it. -/
theorem ofValue_refusal (cwd : Location) (file : Path) (d : Yaml.Document)
    (entries : List (Value × Value)) (hd : d.value = .mapping entries)
    (h : ¬ AreDocumented entries) :
    ∃ cause, ofValue cwd file d.value = .error cause ∧
      (cause.kind = .value ↔ AreOrderable (unknownKeys entries)) ∧
      (cause.kind = .type ↔ ¬ AreOrderable (unknownKeys entries)) ∧
      ((∃ complaint, cause = .settings file.text complaint) ↔
        AreOrderable (unknownKeys entries) ∧ ∀ v ∈ shownValues entries, v.IsWritable) ∧
      ∀ (env : Environment) (files : Files) (path : String), env.directory = cwd →
        Path.ofText path = file → document files cwd file = .ok d.value →
          (AreOrderable (unknownKeys entries) →
            Call.loadSettings env files (some path) = .error (.unable cause.message)) ∧
          (¬ AreOrderable (unknownKeys entries) →
            Call.loadSettings env files (some path) = .error (.failed cause)) := by
  obtain ⟨cause, haccept, horder, hunordered⟩ :=
    accept_refusal file.text (d.distinct entries hd) h
  have hrefused : ofValue cwd file d.value = .error cause := by
    rw [hd, ofValue_eq_accept, haccept]
    rfl
  have hkind : AreOrderable (unknownKeys entries) → cause.kind = .value :=
    fun hyes => (horder hyes).kind_eq
  refine ⟨cause, hrefused, ⟨?_, hkind⟩, ⟨?_, hunordered⟩, ⟨?_, ?_⟩, ?_⟩
  · intro hvalue
    refine Classical.byContradiction fun hnot => ?_
    cases hvalue.symm.trans (hunordered hnot)
  · intro htype hyes
    cases htype.symm.trans (hkind hyes)
  · rintro ⟨complaint, rfl⟩
    have hyes : AreOrderable (unknownKeys entries) :=
      Classical.byContradiction fun hnot => nomatch hunordered hnot
    exact ⟨hyes, (horder hyes).names_iff.1 ⟨complaint, rfl⟩⟩
  · rintro ⟨hyes, hall⟩
    exact (horder hyes).names_iff.2 hall
  · rintro env files path rfl rfl hdocument
    have hload : Settings.load files env.directory (.ofText path) = .error cause := by
      rw [load_eq_ofValue hdocument, hrefused]
    simp only [Call.loadSettings, hload]
    constructor
    · intro hyes
      refine congrArg Except.error ?_
      simp only [hkind hyes]
    · intro hnot
      refine congrArg Except.error ?_
      simp only [hunordered hnot]

/-- One unknown key is reported with the name of the file. -/
theorem ofValue_refusal_unknownKey :
    ¬ AreDocumented [(.text "precision", .int 50)] ∧
      ∃ complaint, ofValue [] (.ofText "calceval.yaml") (.mapping [(.text "precision", .int 50)]) =
        .error (.settings "calceval.yaml" complaint) := by
  have hdocumented : ¬ AreDocumented [(.text "precision", .int 50)] := by
    intro h
    obtain ⟨hknown, -⟩ := forall_fits_iff.1 h.fits
    cases hknown
  refine ⟨hdocumented, ?_⟩
  obtain ⟨cause, hrefused, -, -, hnames, -⟩ := ofValue_refusal [] (.ofText "calceval.yaml")
    ⟨.mapping [(.text "precision", .int 50)], by rintro _ ⟨⟩; exact List.pairwise_singleton _ _⟩
    _ rfl hdocumented
  obtain ⟨complaint, rfl⟩ := hnames.2 ⟨.inl (Nat.le_refl 1), by
    intro v hv
    obtain rfl := List.mem_singleton.1 hv
    exact List.forall_mem_nil _⟩
  exact ⟨complaint, hrefused⟩

/-- A number and a text that name no setting have no order, so the file is not reported. -/
theorem ofValue_mixedKeys :
    ¬ AreDocumented [(.int 1, .int 2), (.text "foo", .int 3)] ∧
      ofValue [] (.ofText "calceval.yaml")
        (.mapping [(.int 1, .int 2), (.text "foo", .int 3)]) =
          .error (.unordered "str" "int") ∧
      (Failure.unordered "str" "int").kind = .type := by
  refine ⟨?_, rfl, rfl⟩
  intro h
  obtain ⟨hknown, -⟩ := forall_fits_iff.1 h.fits
  cases hknown

end Settings

end Calculator
