import Calculator.Proofs.Settings.Overlay
import Calculator.Proofs.Storage.Normal

/-!
# Loading settings

Every configuration that a document gives is well-formed (`Loads.configured`): it has the names of
the settings and no others, the values of the document and else the defaults, each of its type, and
a nesting limit that evaluations accept. The defaults stay what they are, whatever is loaded and
whatever is done to configurations that were given out (`Holdings.Keeps.run`). Both together are
`Settings.load_wellFormed`.
-/

set_option autoImplicit false

namespace Calculator

namespace Settings

open Yaml (Value)

variable {cwd : Location} {file : Path} {path name : String} {entries : List (Value × Value)}
  {loaded : Fields}

/-! ## Configurations -/

/-- The names of settings. -/
def names : List String :=
  ["max_depth", "log_dir", "logging_fsync", "logging_tail_bytes", "number_format"]

/-- A configuration that was loaded from the entries of a file. -/
structure Configured (cwd : Location) (file : Path) (entries : List (Value × Value))
    (loaded : Fields) : Prop where
  /-- It has the names of the settings and no others. -/
  names_eq : loaded.names = names
  /-- An entry is a setting with its value, except that a directory is resolved. -/
  given : ∀ e ∈ entries, ∃ name d, e.1 = .text name ∧ e.2.datum? = some d ∧
    (name ≠ "log_dir" ∨ d = .null → loaded.get? name = some d)
  /-- What no entry names is the default. -/
  default : ∀ name, (∀ e ∈ entries, e.1 ≠ .text name) →
    loaded.get? name = standard.fields.get? name
  /-- A directory is resolved from that of the file. In a normal directory the result is normal. -/
  directory : ∀ e ∈ entries, e.1 = .text "log_dir" → ∀ s, e.2.points? = some s →
    let l := Location.ofPath cwd (file.parent.join (.ofText (Text.mendedText s)))
    loaded.get? "log_dir" = some (.text l.text) ∧ (cwd.IsNormal → l.IsNormal)
  /-- The nesting limit is an integer that evaluations accept. -/
  max_depth : ∃ n, loaded.get? "max_depth" = some (.int n) ∧
    ∃ limit, DepthLimit.ofInt n = .ok limit
  /-- The directory is null or a text. -/
  log_dir : loaded.get? "log_dir" = some .null ∨ ∃ s, loaded.get? "log_dir" = some (.text s)
  logging_fsync : ∃ b, loaded.get? "logging_fsync" = some (.bool b)
  logging_tail_bytes : ∃ n, loaded.get? "logging_tail_bytes" = some (.int n)
  /-- The template is a text. -/
  number_format : ∃ d s, loaded.get? "number_format" = some d ∧ d.points? = some s

/-! ## What is loaded -/

/-- A document that is loaded is accepted. Its entries are put over the defaults, and then a text for
the directory is resolved. -/
structure Loads (cwd : Location) (file : Path) (entries : List (Value × Value))
    (loaded : Fields) : Prop where
  fits : ∀ e ∈ entries, Fits e
  distinct : Value.HasDistinctKeys entries
  depth : ∃ limit, depthOf file.text entries = .ok limit
  unresolved : (value? entries "log_dir").bind Value.points? = none →
    loaded = entries.foldl overlay standard.fields
  resolved : ∀ s, (value? entries "log_dir").bind Value.points? = some s →
    loaded = (entries.foldl overlay standard.fields).set "log_dir"
      (.text (Location.ofPath cwd (file.parent.join (.ofText (Text.mendedText s)))).text)

theorem directoryOf_eq_ok {s : List Text.Point} {l : Location}
    (h : directoryOf cwd file s = .ok l) :
    l = Location.ofPath cwd (file.parent.join (.ofText (Text.mendedText s))) := by
  unfold directoryOf at h
  split at h
  · cases h
  · exact (Except.ok.inj h).symm

theorem loads_of_configure {d : Yaml.Document}
    (h : configure standard.fields cwd file d.value = .ok loaded) :
    ∃ entries, entriesOf file.text d.value = .ok entries ∧ Loads cwd file entries loaded := by
  obtain ⟨⟨entries, limit⟩, haccept, h⟩ := exists_of_bind_eq_ok h
  obtain ⟨hfits, hdistinct, hdepth⟩ := accept_eq_ok haccept
  obtain ⟨entries', hentries, haccept⟩ := exists_of_bind_eq_ok haccept
  obtain ⟨u, -, haccept⟩ := exists_of_bind_eq_ok haccept
  obtain ⟨u', -, haccept⟩ := exists_of_bind_eq_ok haccept
  obtain ⟨limit', -, haccept⟩ := exists_of_bind_eq_ok haccept
  cases haccept
  dsimp only at h
  rw [points?_overlaid hfits hdistinct] at h
  refine ⟨entries, hentries, hfits, hdistinct, ⟨limit, hdepth⟩, ?_, ?_⟩
  · intro hnone
    rw [hnone] at h
    exact (Except.ok.inj h).symm
  · intro s hsome
    rw [hsome] at h
    dsimp only at h
    cases hdirectory : directoryOf cwd file s with
    | error cause =>
        rw [hdirectory] at h
        cases h
    | ok l =>
        rw [hdirectory] at h
        rw [← directoryOf_eq_ok hdirectory]
        exact (Except.ok.inj h).symm

/-- Each setting has a default. -/
theorem exists_standard {type : SettingType} (h : types.lookup name = some type) :
    ∃ d, standard.fields.get? name = some d := by
  have hall : ∀ f ∈ types, (standard.fields.get? f.1).isSome := by decide
  obtain ⟨front, rest, htypes, -⟩ := List.lookup_eq_some_iff.1 h
  apply Option.isSome_iff_exists.1
  apply hall (name, type)
  rw [htypes]
  exact List.mem_append_right _ List.mem_cons_self

/-- A template that is given has points, as the default has. -/
theorem points?_given_template (hfits : ∀ e ∈ entries, Fits e) :
    ∃ s, ((Settings.given entries "number_format").getD (.text standard.template)).points? =
      some s := by
  rw [Settings.given]
  cases hvalue : value? entries "number_format" with
  | none => exact ⟨_, rfl⟩
  | some v =>
      have hfit : SettingType.text.fits v := fits_of_value? hfits hvalue rfl
      cases v with
      | text s => exact ⟨_, rfl⟩
      | torn s => exact ⟨_, rfl⟩
      | _ => cases hfit

namespace Loads

variable (h : Loads cwd file entries loaded)

include h

theorem get?_of_ne (hname : name ≠ "log_dir") : loaded.get? name =
    (standard.fields.get? name).map fun d => (given entries name).getD d := by
  have hstandard : standard.fields.names = types.map Prod.fst := rfl
  have hoverlaid := get?_foldl_overlay h.fits h.distinct hstandard name
  cases hpoints : (value? entries "log_dir").bind Value.points? with
  | none => rw [h.unresolved hpoints, hoverlaid]
  | some s => rw [h.resolved s hpoints, Fields.get?_set, if_neg hname, hoverlaid]

theorem get?_directory_of_none (hpoints : (value? entries "log_dir").bind Value.points? = none) :
    loaded.get? "log_dir" = some .null := by
  rw [h.unresolved hpoints, foldl_overlay_standard h.fits h.distinct,
    given_directory_of_none h.fits hpoints]
  rfl

theorem get?_directory_of_some {s : List Text.Point}
    (hpoints : (value? entries "log_dir").bind Value.points? = some s) :
    loaded.get? "log_dir" = some
      (.text (Location.ofPath cwd (file.parent.join (.ofText (Text.mendedText s)))).text) := by
  rw [h.resolved s hpoints, Fields.get?_set, if_pos rfl]

theorem names_eq : loaded.names = names := by
  have hoverlaid : (entries.foldl overlay standard.fields).names = names := by
    rw [foldl_overlay_standard h.fits h.distinct]
    rfl
  cases hpoints : (value? entries "log_dir").bind Value.points? with
  | none => rw [h.unresolved hpoints, hoverlaid]
  | some s =>
      have hnodup : names.Nodup := by decide
      have hmem : "log_dir" ∈ names := by decide
      rw [h.resolved s hpoints, Fields.set_eq_map _ (hoverlaid ▸ hnodup) (hoverlaid ▸ hmem),
        ← hoverlaid, Fields.names, List.map_map]
      rfl

/-- The value of an entry is under the name that is its key, unless it is resolved. -/
theorem get?_of_mem {e : Value × Value} (he : e ∈ entries) : ∃ name d, e.1 = .text name ∧
    e.2.datum? = some d ∧ (name ≠ "log_dir" ∨ d = .null → loaded.get? name = some d) := by
  obtain ⟨name, type, hkey, htype, hfit⟩ := h.fits e he
  obtain ⟨d, hd⟩ := exists_datum hfit
  have hgiven : Settings.given entries name = some d := by
    rw [Settings.given, value?_of_mem h.fits h.distinct he hkey]
    exact hd
  refine ⟨name, d, hkey, hd, fun hkept => ?_⟩
  by_cases hname : name = "log_dir"
  · obtain rfl := hkept.resolve_left (not_not_intro hname)
    subst hname
    -- null has no points, so nothing is resolved
    apply h.get?_directory_of_none
    rw [← points?_given, hgiven]
    rfl
  · obtain ⟨old, hold⟩ := exists_standard htype
    rw [h.get?_of_ne hname, hold, hgiven]
    rfl

/-- The default is under a name that is no key. -/
theorem get?_of_notMem (hother : ∀ e ∈ entries, e.1 ≠ .text name) :
    loaded.get? name = standard.fields.get? name := by
  have hnone : value? entries name = none := by
    cases hvalue : value? entries name with
    | none => rfl
    | some v => exact absurd rfl (hother _ (mem_of_value? h.fits hvalue))
  by_cases hname : name = "log_dir"
  · subst hname
    rw [h.get?_directory_of_none (by rw [hnone]; rfl)]
    rfl
  · rw [h.get?_of_ne hname, Settings.given, hnone]
    exact Option.map_id'

theorem get?_directory_of_mem {e : Value × Value} (he : e ∈ entries) (hkey : e.1 = .text "log_dir")
    {s : List Text.Point} (hs : e.2.points? = some s) :
    loaded.get? "log_dir" = some
      (.text (Location.ofPath cwd (file.parent.join (.ofText (Text.mendedText s)))).text) := by
  apply h.get?_directory_of_some
  rw [value?_of_mem h.fits h.distinct he hkey]
  exact hs

/-- **What is loaded is a configuration.** -/
theorem configured (hfile : Path.ArePlain file.names) : Configured cwd file entries loaded where
  names_eq := h.names_eq
  given _ he := h.get?_of_mem he
  default _ hother := h.get?_of_notMem hother
  directory _ he hkey _ hs := by
    refine ⟨h.get?_directory_of_mem he hkey hs, fun hcwd => ?_⟩
    exact Location.isNormal_ofPath hcwd
      (Path.arePlain_join (Path.arePlain_parent hfile) (Path.arePlain_ofText _))
  max_depth := by
    obtain ⟨limit, hdepth⟩ := h.depth
    refine ⟨limit.levels, ?_, limit, DepthLimit.ofInt_levels limit⟩
    rw [h.get?_of_ne (by decide), ← depthOf_eq_ok h.fits hdepth]
    rfl
  log_dir := by
    cases hpoints : (value? entries "log_dir").bind Value.points? with
    | none => exact .inl (h.get?_directory_of_none hpoints)
    | some s => exact .inr ⟨_, h.get?_directory_of_some hpoints⟩
  logging_fsync := by
    have hgiven := given_synchronous h.fits
    exact ⟨_, (h.get?_of_ne (by decide)).trans (congrArg some hgiven)⟩
  logging_tail_bytes := by
    have hgiven := given_tailBytes h.fits
    exact ⟨_, (h.get?_of_ne (by decide)).trans (congrArg some hgiven)⟩
  number_format := by
    obtain ⟨s, hs⟩ := points?_given_template h.fits
    exact ⟨_, s, h.get?_of_ne (by decide), hs⟩

end Loads

/-- The nesting limit of settings is checked as that of evaluations is. -/
theorem depthOf_eq_ok_iff {n : Int} {limit : DepthLimit}
    (h : value? entries "max_depth" = some (.int n)) :
    depthOf path entries = .ok limit ↔ DepthLimit.ofInt n = .ok limit := by
  rw [depthOf, h]
  dsimp only
  by_cases hlow : n < 1
  · rw [if_pos hlow, DepthLimit.ofInt, dif_pos hlow]
    exact iff_of_false (fun h => by cases h) (fun h => by cases h)
  · rw [if_neg hlow]
    cases DepthLimit.ofInt n with
    | error cause => exact iff_of_false (fun h => by cases h) (fun h => by cases h)
    | ok limit' => exact Iff.rfl

/-- **A nesting limit alone is loaded exactly if evaluations accept it.** -/
theorem configure_depth (cwd : Location) (file : Path) (n : Int) :
    (∃ loaded, configure standard.fields cwd file
        (.mapping [(.text "max_depth", .int n)]) = .ok loaded) ↔
      ∃ limit, DepthLimit.ofInt n = .ok limit := by
  -- the checks of names and types are passed whatever the integer is
  have haccept : accept file.text (.mapping [(.text "max_depth", .int n)]) =
      depthOf file.text [(.text "max_depth", .int n)] >>= fun limit =>
        pure ([(.text "max_depth", .int n)], limit) := rfl
  constructor
  · rintro ⟨loaded, hloaded⟩
    rw [configure, haccept] at hloaded
    obtain ⟨r, hr, -⟩ := exists_of_bind_eq_ok hloaded
    obtain ⟨limit, hdepth, -⟩ := exists_of_bind_eq_ok hr
    exact ⟨limit, (depthOf_eq_ok_iff rfl).1 hdepth⟩
  · rintro ⟨limit, hlimit⟩
    refine ⟨overlay standard.fields (.text "max_depth", .int n), ?_⟩
    rw [configure, haccept, (depthOf_eq_ok_iff rfl).2 hlimit]
    rfl

end Settings

/-! ## Configurations that are given out -/

/-- What is done with configurations: one is loaded from a document, the defaults are taken where
there is no file, or one that was given out is changed. -/
inductive Handling where
  | load (cwd : Location) (path : String) (d : Yaml.Document)
  | absent
  | edit (place : Nat) (change : Fields → Fields)

/-- Records that are held in places. The first place is that of the defaults; those that were given
out are known by their places. -/
structure Holdings where
  records : List Fields
  given : List Nat

namespace Holdings

/-- Nothing has been given out. -/
def start : Holdings := ⟨[Settings.standard.fields], []⟩

/-- The defaults as they are held. -/
def defaults (h : Holdings) : Fields := h.records.headD []

/-- A new record is given out. -/
def give (h : Holdings) (fields : Fields) : Holdings :=
  ⟨h.records ++ [fields], h.records.length :: h.given⟩

/-- One step, with what a load gives. Only what was given out can be changed. -/
def step (h : Holdings) : Handling → Holdings × Option (Except Failure Fields)
  | .load cwd path d =>
    match Settings.configure h.defaults cwd (.ofText path) d.value with
    | .ok fields => (h.give fields, some (.ok fields))
    | .error cause => (h, some (.error cause))
  | .absent => (h.give h.defaults, some (.ok h.defaults))
  | .edit place change =>
    (if place ∈ h.given then { h with records := h.records.modify place change } else h, none)

/-- Steps one after the other, with what they give. -/
def run (h : Holdings) : List Handling → Holdings × List (Option (Except Failure Fields))
  | [] => (h, [])
  | x :: rest => ((run (h.step x).1 rest).1, (h.step x).2 :: (run (h.step x).1 rest).2)

/-- The first place has the defaults, and it was not given out. -/
structure Keeps (h : Holdings) : Prop where
  first : h.records.head? = some Settings.standard.fields
  apart : 0 ∉ h.given

theorem keeps_start : start.Keeps := ⟨rfl, List.not_mem_nil⟩

namespace Keeps

variable {h : Holdings} (hkeeps : h.Keeps)

include hkeeps

theorem defaults_eq : h.defaults = Settings.standard.fields := by
  rw [defaults, List.headD_eq_head?_getD, hkeeps.first]
  rfl

/-- A record is given out in a place behind that of the defaults. -/
theorem give (fields : Fields) : (h.give fields).Keeps := by
  have hlength : h.records.length ≠ 0 := by
    intro hnil
    have hfirst := hkeeps.first
    rw [List.length_eq_zero_iff.1 hnil] at hfirst
    cases hfirst
  constructor
  · rw [Holdings.give, List.head?_append, hkeeps.first]
    rfl
  · intro hmem
    rcases List.mem_cons.1 hmem with hplace | hmem
    · exact hlength hplace.symm
    · exact hkeeps.apart hmem

/-- **No step changes the defaults.** -/
theorem step (x : Handling) : (h.step x).1.Keeps := by
  cases x with
  | load cwd path d =>
      rw [Holdings.step]
      cases Settings.configure h.defaults cwd (.ofText path) d.value with
      | ok fields => exact hkeeps.give fields
      | error cause => exact hkeeps
  | absent => exact hkeeps.give h.defaults
  | edit place change =>
      rw [Holdings.step]
      by_cases hplace : place ∈ h.given
      · rw [if_pos hplace]
        refine ⟨?_, hkeeps.apart⟩
        -- the place of the defaults was not given out
        have hne : place ≠ 0 := fun heq => hkeeps.apart (heq ▸ hplace)
        rw [← hkeeps.first, List.head?_eq_getElem?, List.head?_eq_getElem?,
          List.getElem?_modify]
        simp only [if_neg hne, id_map']
      · rw [if_neg hplace]
        exact hkeeps

/-- What a step gives does not depend on what was done before. -/
theorem step_snd (x : Handling) : (h.step x).2 = (start.step x).2 := by
  cases x with
  | load cwd path d =>
      have hstart : start.defaults = Settings.standard.fields := rfl
      rw [Holdings.step, Holdings.step, hkeeps.defaults_eq, hstart]
      cases Settings.configure Settings.standard.fields cwd (.ofText path) d.value with
      | ok fields => rfl
      | error cause => rfl
  | absent =>
      rw [Holdings.step, hkeeps.defaults_eq]
      rfl
  | edit place change => rfl

/-- **The defaults are never changed**, and each load gives what it gives at the start. -/
theorem run (xs : List Handling) :
    (h.run xs).1.Keeps ∧ (h.run xs).2 = xs.map fun x => (start.step x).2 := by
  induction xs generalizing h with
  | nil => exact ⟨hkeeps, rfl⟩
  | cons x rest ih =>
      obtain ⟨hlast, hgiven⟩ := ih (hkeeps.step x)
      refine ⟨hlast, ?_⟩
      rw [Holdings.run, List.map_cons, hkeeps.step_snd x, hgiven]

end Keeps

end Holdings

/-! ## Loading -/

/-- **Every configuration that loads is well-formed and usable.** Whatever a document holds, reading
it gives the same as putting its entries over the defaults, and what that gives is a configuration.
Of the nesting limits just those are loaded that evaluations accept. The defaults stay the same
through loads and changes of what was loaded, and so does what a load gives. -/
theorem Settings.load_wellFormed (cwd : Location) (path : String) :
    (∀ s v, Yaml.read s = .ok v → ∃ d : Yaml.Document, d.value = v) ∧
    (∀ d : Yaml.Document,
      (ofValue cwd (.ofText path) d.value).map fields =
        (configure standard.fields cwd (.ofText path) d.value).map Fields.mended ∧
      ∀ loaded, configure standard.fields cwd (.ofText path) d.value = .ok loaded →
        ∃ entries, entriesOf (Path.ofText path).text d.value = .ok entries ∧
          Configured cwd (.ofText path) entries loaded) ∧
    (∀ n : Int,
      (∃ loaded, configure standard.fields cwd (.ofText path)
        (.mapping [(.text "max_depth", .int n)]) = .ok loaded) ↔
      ∃ limit, DepthLimit.ofInt n = .ok limit) ∧
    ∀ xs : List Handling, (Holdings.start.run xs).1.defaults = standard.fields ∧
      (Holdings.start.run xs).2 = xs.map fun x => (Holdings.start.step x).2 := by
  refine ⟨fun s v => Yaml.exists_document, fun d => ⟨?_, ?_⟩, ?_, fun xs => ?_⟩
  · exact map_fields_ofValue cwd (.ofText path) d
  · intro loaded hloaded
    obtain ⟨entries, hentries, hloads⟩ := loads_of_configure hloaded
    exact ⟨entries, hentries, hloads.configured (Path.arePlain_ofText path)⟩
  · exact configure_depth cwd (.ofText path)
  · obtain ⟨hlast, hgiven⟩ := Holdings.keeps_start.run xs
    exact ⟨hlast.defaults_eq, hgiven⟩

end Calculator
