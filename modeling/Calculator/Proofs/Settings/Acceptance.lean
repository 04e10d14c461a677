import Calculator.Proofs.Settings.Loading

/-!
# Which documents are accepted

A settings file should be empty, or a mapping from names of settings to values of their types with a
nesting limit in range (`Value.IsDocumented`). All such documents are accepted whose directory for
the log can be resolved, and of the others those that have no content although they are neither null
nor a mapping: false, zero, and what is empty (`Value.IsHollow`). They give the defaults. No other
document is accepted (`ofValue_accepts`).
-/

set_option autoImplicit false

namespace Calculator

open Yaml (Value)

/-! ## Kinds of documents -/

namespace Yaml.Value

/-- The value has no content, and is neither null nor a mapping. -/
inductive IsHollow : Value → Prop where
  | bool : IsHollow (.bool false)
  | int : IsHollow (.int 0)
  | float {x : Float} : (x == 0) = true → IsHollow (.float x)
  | text : IsHollow (.text "")
  | torn : IsHollow (.torn [])
  | bytes : IsHollow (.bytes [])
  | list : IsHollow (.list [])
  | pairs : IsHollow (.pairs [])
  | set : IsHollow (.set [])

/-- What has no content is hollow, unless it is null or a mapping. -/
theorem isTruthy_eq_false_iff {v : Value} :
    v.isTruthy = false ↔ v = .null ∨ v = .mapping [] ∨ v.IsHollow := by
  constructor
  · intro h
    cases v with
    | null => exact .inl rfl
    | mapping entries =>
        obtain rfl : entries = [] := by simpa [isTruthy] using h
        exact .inr (.inl rfl)
    | bool b =>
        obtain rfl : b = false := h
        exact .inr (.inr .bool)
    | int n =>
        obtain rfl : n = 0 := by simpa [isTruthy] using h
        exact .inr (.inr .int)
    | float x => exact .inr (.inr (.float (by simpa [isTruthy] using h)))
    | text s =>
        obtain rfl : s = "" := by simpa [isTruthy] using h
        exact .inr (.inr .text)
    | torn s =>
        obtain rfl : s = [] := by simpa [isTruthy] using h
        exact .inr (.inr .torn)
    | bytes bs =>
        obtain rfl : bs = [] := by simpa [isTruthy] using h
        exact .inr (.inr .bytes)
    | list items =>
        obtain rfl : items = [] := by simpa [isTruthy] using h
        exact .inr (.inr .list)
    | pairs entries =>
        obtain rfl : entries = [] := by simpa [isTruthy] using h
        exact .inr (.inr .pairs)
    | set items =>
        obtain rfl : items = [] := by simpa [isTruthy] using h
        exact .inr (.inr .set)
    | moment m => cases h
    | loop ofMapping => cases h
  · rintro (rfl | rfl | h)
    · rfl
    · rfl
    · cases h with
      | float hzero => simp only [isTruthy, hzero, Bool.not_true]
      | bool | int | text | torn | bytes | list | pairs | set => rfl

end Yaml.Value

namespace Settings

/-- The entries give settings values of their types, and the nesting limit is in range. -/
structure AreDocumented (entries : List (Value × Value)) : Prop where
  fits : ∀ e ∈ entries, Fits e
  inRange : ∀ n : Int, (.text "max_depth", .int n) ∈ entries → 1 ≤ n ∧ n ≤ DepthLimit.largest

/-- The value is what a settings file should be: null, or a mapping whose entries are
documented. -/
inductive IsDocumented : Value → Prop where
  | null : IsDocumented .null
  | mapping {entries : List (Value × Value)} : AreDocumented entries →
      IsDocumented (.mapping entries)

/-- Nothing is in the way of a directory that the entries name, seen from the settings file. -/
def AreResolvable (file : Path) (entries : List (Value × Value)) : Prop :=
  ∀ v s, (.text "log_dir", v) ∈ entries → v.points? = some s → file.parent.obstacle? s = none

/-! ## The checks -/

variable {cwd : Location} {file : Path} {path : String} {entries : List (Value × Value)}

/-- The keys that name no setting. -/
def unknownKeys (entries : List (Value × Value)) : List Value :=
  (entries.map (·.1)).filter fun k => (typeOf? k).isNone

/-- Whether an entry gives a setting a value of another type. -/
def misfits (e : Value × Value) : Bool := (typeOf? e.1).any fun type => !type.fits e.2

theorem misfits_iff {e : Value × Value} :
    misfits e = true ↔ ∃ type, typeOf? e.1 = some type ∧ ¬ type.fits e.2 := by
  simp [misfits, Option.any_eq_true]

/-- An entry fits if its key names a setting and its value is of the type of the setting. -/
theorem fits_iff {e : Value × Value} : Fits e ↔ (typeOf? e.1).isSome ∧ misfits e = false := by
  constructor
  · rintro ⟨name, type, hkey, hlookup, hfit⟩
    have htype : typeOf? e.1 = some type := by
      rw [hkey]
      exact hlookup
    simp [misfits, htype, hfit]
  · rintro ⟨hknown, hmisfit⟩
    obtain ⟨type, htype⟩ := Option.isSome_iff_exists.1 hknown
    obtain ⟨name, hkey, hlookup⟩ := typeOf?_eq_some htype
    exact ⟨name, type, hkey, hlookup, by simpa [misfits, htype] using hmisfit⟩

/-- All entries fit if no key is unknown and no value is of another type. -/
theorem forall_fits_iff :
    (∀ e ∈ entries, Fits e) ↔ unknownKeys entries = [] ∧ entries.find? misfits = none := by
  rw [unknownKeys, List.filter_eq_nil_iff, List.find?_eq_none]
  simp only [List.forall_mem_map, Bool.not_eq_true, Option.isNone_eq_false_iff, fits_iff]
  exact ⟨fun h => ⟨fun e he => (h e he).1, fun e he => (h e he).2⟩,
    fun h e he => ⟨h.1 e he, h.2 e he⟩⟩

theorem checkKeys_of_known (h : unknownKeys entries = []) : checkKeys path entries = .ok () := by
  unfold checkKeys
  exact if_neg fun hne => hne h

theorem checkType_of_not_misfits {e : Value × Value} (h : misfits e = false) :
    checkType path e = .ok () := by
  rw [checkType]
  cases htype : typeOf? e.1 with
  | none => rfl
  | some type =>
      have hfit : type.fits e.2 = true := by simpa [misfits, htype] using h
      exact if_pos hfit

theorem checkTypes_of_none (h : entries.find? misfits = none) :
    entries.forM (checkType path) = .ok () := by
  induction entries with
  | nil => rfl
  | cons e rest ih =>
      rw [List.find?_cons] at h
      cases hmisfit : misfits e with
      | true =>
          rw [hmisfit] at h
          cases h
      | false =>
          rw [hmisfit] at h
          show checkType path e >>= (fun _ => rest.forM (checkType path)) = .ok ()
          rw [checkType_of_not_misfits hmisfit]
          exact ih h

/-- Entries that fit have a nesting limit if the integer that they give for it is in range. -/
theorem exists_depth_iff (path : String) (hfits : ∀ e ∈ entries, Fits e)
    (hdistinct : Value.HasDistinctKeys entries) :
    (∃ limit, depthOf path entries = .ok limit) ↔
      ∀ n : Int, (.text "max_depth", .int n) ∈ entries → 1 ≤ n ∧ n ≤ DepthLimit.largest := by
  unfold depthOf
  cases hvalue : value? entries "max_depth" with
  | none =>
      refine ⟨fun _ n hn => ?_, fun _ => ⟨_, rfl⟩⟩
      cases hvalue.symm.trans (value?_of_mem hfits hdistinct hn rfl)
  | some v =>
      have hfit : SettingType.int.fits v := fits_of_value? hfits hvalue rfl
      have hmem := mem_of_value? hfits hvalue
      cases v with
      | int n =>
          -- keys are distinct, so the integer that is looked up is the only one that is given
          have hsame : ∀ m : Int, (.text "max_depth", .int m) ∈ entries → m = n := by
            intro m hm
            cases hvalue.symm.trans (value?_of_mem hfits hdistinct hm rfl)
            rfl
          dsimp only
          constructor
          · rintro ⟨limit, hlimit⟩ m hm
            obtain rfl := hsame m hm
            by_cases hpositive : m < 1
            · rw [if_pos hpositive] at hlimit
              cases hlimit
            · rw [if_neg hpositive, DepthLimit.ofInt, dif_neg hpositive] at hlimit
              by_cases hlarge : (DepthLimit.largest : Int) < m
              · rw [dif_pos hlarge] at hlimit
                cases hlimit
              · omega
          · intro hrange
            obtain ⟨hpositive, hlarge⟩ := hrange n hmem
            refine ⟨⟨n.toNat, by omega, by simp only [DepthLimit.largest] at hlarge; omega⟩, ?_⟩
            rw [if_neg (by omega), DepthLimit.ofInt, dif_neg (by omega), dif_neg (by omega)]
      | _ => cases hfit

/-- Entries that fit have a directory if nothing is in its way. -/
theorem exists_directory_iff (cwd : Location) (file : Path) (hfits : ∀ e ∈ entries, Fits e)
    (hdistinct : Value.HasDistinctKeys entries) :
    (∃ l, logDirectoryOf cwd file entries = .ok l) ↔ AreResolvable file entries := by
  unfold logDirectoryOf
  cases hvalue : value? entries "log_dir" with
  | none =>
      refine ⟨fun _ v s hv => ?_, fun _ => ⟨_, rfl⟩⟩
      cases hvalue.symm.trans (value?_of_mem hfits hdistinct hv rfl)
  | some v =>
      have hmem := mem_of_value? hfits hvalue
      have hsame : ∀ w, (.text "log_dir", w) ∈ entries → w = v := by
        intro w hw
        exact Option.some.inj ((value?_of_mem hfits hdistinct hw rfl).symm.trans hvalue)
      rw [Option.bind_some]
      cases hpoints : v.points? with
      | none =>
          refine ⟨fun _ w s hw hs => ?_, fun _ => ⟨_, rfl⟩⟩
          rw [hsame w hw, hpoints] at hs
          cases hs
      | some s =>
          simp only [directoryOf]
          cases hobstacle : file.parent.obstacle? s with
          | none =>
              refine ⟨fun _ w t hw ht => ?_, fun _ => ⟨_, rfl⟩⟩
              rw [hsame w hw, hpoints] at ht
              rw [← Option.some.inj ht, hobstacle]
          | some cause =>
              constructor
              · rintro ⟨l, hl⟩
                cases hl
              · intro hresolvable
                rw [hresolvable v s hmem hpoints] at hobstacle
                cases hobstacle

/-! ## Documents -/

theorem accept_mapping : accept path (.mapping entries) = (do
    checkKeys path entries
    entries.forM (checkType path)
    let limit ← depthOf path entries
    pure (entries, limit)) := by
  have hentries : entriesOf path (.mapping entries) = .ok entries := by
    cases entries with
    | nil => rfl
    | cons e rest => rfl
  rw [accept, hentries]
  rfl

/-- The entries of a mapping are accepted if they are documented. -/
theorem accept_mapping_eq_ok_iff {entries' : List (Value × Value)} {limit : DepthLimit}
    (hdistinct : Value.HasDistinctKeys entries) :
    accept path (.mapping entries) = .ok (entries', limit) ↔
      AreDocumented entries ∧ entries' = entries ∧ depthOf path entries = .ok limit := by
  constructor
  · intro haccept
    obtain rfl : entries' = entries := by
      rw [accept_mapping] at haccept
      obtain ⟨_, -, haccept⟩ := exists_of_bind_eq_ok haccept
      obtain ⟨_, -, haccept⟩ := exists_of_bind_eq_ok haccept
      obtain ⟨_, -, haccept⟩ := exists_of_bind_eq_ok haccept
      cases haccept
      rfl
    obtain ⟨hfits, -, hdepth⟩ :=
      accept_eq_ok (d := ⟨.mapping entries', by rintro _ ⟨⟩; exact hdistinct⟩) haccept
    exact ⟨⟨hfits, (exists_depth_iff path hfits hdistinct).1 ⟨limit, hdepth⟩⟩, rfl, hdepth⟩
  · rintro ⟨hdocumented, rfl, hdepth⟩
    obtain ⟨hknown, htypes⟩ := forall_fits_iff.1 hdocumented.fits
    rw [accept_mapping, checkKeys_of_known hknown, checkTypes_of_none htypes, hdepth]
    rfl

/-- A mapping gives settings if its entries are documented and nothing is in the way of the
directory. -/
theorem exists_ofValue_mapping_iff (hdistinct : Value.HasDistinctKeys entries) :
    (∃ s, ofValue cwd file (.mapping entries) = .ok s) ↔
      AreDocumented entries ∧ AreResolvable file entries := by
  rw [ofValue_eq_accept]
  constructor
  · rintro ⟨s, hs⟩
    obtain ⟨⟨entries', limit⟩, haccept, hgiven⟩ := exists_of_bind_eq_ok hs
    obtain ⟨hdocumented, rfl, -⟩ := (accept_mapping_eq_ok_iff hdistinct).1 haccept
    refine ⟨hdocumented, (exists_directory_iff cwd file hdocumented.fits hdistinct).1 ?_⟩
    cases hdirectory : logDirectoryOf cwd file entries' with
    | ok l => exact ⟨l, rfl⟩
    | error cause =>
        rw [hdirectory] at hgiven
        cases hgiven
  · rintro ⟨hdocumented, hresolvable⟩
    obtain ⟨limit, hdepth⟩ := (exists_depth_iff file.text hdocumented.fits hdistinct).2
      hdocumented.inRange
    obtain ⟨l, hdirectory⟩ :=
      (exists_directory_iff cwd file hdocumented.fits hdistinct).2 hresolvable
    refine ⟨ofEntries entries limit l, ?_⟩
    rw [(accept_mapping_eq_ok_iff hdistinct).2 ⟨hdocumented, rfl, hdepth⟩]
    show ofEntries entries limit <$> logDirectoryOf cwd file entries = _
    rw [hdirectory]
    rfl

/-- Without content, a value gives the defaults. -/
theorem ofValue_of_not_truthy {v : Value} (h : v.isTruthy = false) :
    ofValue cwd file v = .ok standard := by
  have hentries : entriesOf file.text v = .ok [] := by
    unfold entriesOf
    rw [if_neg (by simp [h])]
  rw [ofValue, hentries]
  rfl

/-- With content, a value that is no mapping is refused. -/
theorem ofValue_of_not_mapping {v : Value} (h : v.isTruthy) (hmapping : v.isMapping = false) :
    ofValue cwd file v = .error (.settings file.text "expected a mapping at top level") := by
  have hentries :
      entriesOf file.text v = .error (.settings file.text "expected a mapping at top level") := by
    unfold entriesOf
    rw [if_pos h]
    split
    · cases hmapping
    · rfl
  rw [ofValue, hentries]
  rfl

/-- **Documents that are accepted.** A document gives settings if it is as it should be and nothing
is in the way of the directory that it names; or if it is hollow, and then it gives the defaults.
Any other document that is no mapping is refused as such. -/
theorem ofValue_accepts (cwd : Location) (file : Path) (d : Yaml.Document) :
    ((∃ s, ofValue cwd file d.value = .ok s) ↔
      (IsDocumented d.value ∧ ∀ entries, d.value = .mapping entries → AreResolvable file entries) ∨
        d.value.IsHollow) ∧
    (d.value.IsHollow → ofValue cwd file d.value = .ok standard) ∧
    (d.value.isMapping = false → d.value ≠ .null → ¬ d.value.IsHollow →
      ofValue cwd file d.value =
        .error (.settings file.text "expected a mapping at top level")) := by
  obtain ⟨v, hdistinct⟩ := d
  have hhollow (h : v.IsHollow) : ofValue cwd file v = .ok standard :=
    ofValue_of_not_truthy (Value.isTruthy_eq_false_iff.2 (.inr (.inr h)))
  have hother (hmapping : v.isMapping = false) (hnull : v ≠ .null) (h : ¬ v.IsHollow) :
      ofValue cwd file v = .error (.settings file.text "expected a mapping at top level") := by
    refine ofValue_of_not_mapping ?_ hmapping
    refine Classical.byContradiction fun htruthy => ?_
    rcases Value.isTruthy_eq_false_iff.1 (Bool.eq_false_iff.2 htruthy) with rfl | rfl | hv
    · exact hnull rfl
    · cases hmapping
    · exact h hv
  refine ⟨⟨?_, ?_⟩, hhollow, hother⟩
  · rintro ⟨s, hs⟩
    refine Classical.or_iff_not_imp_right.2 fun hnot => ?_
    by_cases hnull : v = .null
    · subst hnull
      exact ⟨.null, fun entries h => nomatch h⟩
    · cases hmapping : v.isMapping with
      | false =>
          rw [hother hmapping hnull hnot] at hs
          cases hs
      | true =>
          cases v with
          | mapping entries =>
              obtain ⟨hdocumented, hresolvable⟩ :=
                (exists_ofValue_mapping_iff (hdistinct entries rfl)).1 ⟨s, hs⟩
              refine ⟨.mapping hdocumented, ?_⟩
              rintro _ ⟨⟩
              exact hresolvable
          | _ => cases hmapping
  · rintro (⟨hdocumented, hresolvable⟩ | h)
    · cases hdocumented with
      | null => exact ⟨standard, rfl⟩
      | mapping hentries =>
          exact (exists_ofValue_mapping_iff (hdistinct _ rfl)).2 ⟨hentries, hresolvable _ rfl⟩
    · exact ⟨standard, hhollow h⟩

/-- The document `false` is accepted, though it is neither null nor a mapping. -/
theorem ofValue_falseDocument :
    (∃ s, ofValue [] (.ofText "calceval.yaml") (.bool false) = .ok s) ∧
      ¬ IsDocumented (.bool false) := by
  refine ⟨⟨standard, rfl⟩, ?_⟩
  intro h
  cases h

end Settings

end Calculator
