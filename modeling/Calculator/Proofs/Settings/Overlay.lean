import Calculator.Proofs.Data.Proper
import Calculator.Proofs.Storage.Growth
import Calculator.Proofs.Yaml.Keys
import Calculator.Settings

/-!
# Settings as fields

`Settings.configure` puts the entries of a document, one by one, in the place of the fields of the
defaults. `Settings.ofValue` looks up the value of each setting. Both refuse the same documents, with
the same failures, and give the same settings (`map_fields_ofValue`): the entries that are accepted
have keys of their own, so putting them over the defaults is a choice for each field
(`foldl_overlay`).
-/

set_option autoImplicit false

namespace Calculator

/-! ## Data of settings -/

/-- A scalar that settings may have, as data. -/
def Yaml.Value.datum? : Yaml.Value → Option Datum
  | .null => some .null
  | .bool b => some (.bool b)
  | .int n => some (.int n)
  | .text s => some (.text s)
  | .torn s => some (.torn s)
  | _ => none

namespace Datum

/-- A text with replacement characters for halves. -/
def mended : Datum → Datum
  | torn s => text (Text.mendedText s)
  | d => d

end Datum

theorem Yaml.Value.bind_points?_datum? (v : Yaml.Value) :
    v.datum?.bind Datum.points? = v.points? := by
  cases v <;> rfl

namespace Fields

/-- The fields with replacement characters for halves in their texts. -/
def mended (fields : Fields) : Fields := fields.map fun f => (f.1, f.2.mended)

/-- A value is set in the place of its name. -/
theorem set_eq_map {fields : Fields} {name : String} (d : Datum) (hnodup : fields.names.Nodup)
    (hname : name ∈ fields.names) :
    fields.set name d = fields.map fun f => (f.1, if f.1 = name then d else f.2) := by
  induction fields with
  | nil => cases hname
  | cons f rest ih =>
      obtain ⟨m, old⟩ := f
      obtain ⟨hm, hrest⟩ := List.nodup_cons.1 hnodup
      rw [set, List.map_cons]
      by_cases hhead : m = name
      · subst hhead
        -- the name does not come again, so nothing else changes
        have hothers : rest.map (fun f => (f.1, if f.1 = m then d else f.2)) = rest := by
          have hsame : ∀ f ∈ rest, (f.1, if f.1 = m then d else f.2) = id f := by
            intro f hf
            have hne : f.1 ≠ m := fun heq => hm (List.mem_map.2 ⟨f, hf, heq⟩)
            rw [if_neg hne]
            rfl
          rw [List.map_congr_left hsame, List.map_id]
        rw [if_pos rfl, if_pos rfl, hothers]
      · have hmem : name ∈ names rest :=
          (List.mem_cons.1 hname).resolve_left fun heq => hhead heq.symm
        rw [if_neg hhead, if_neg hhead, ih hrest hmem]

end Fields

namespace DepthLimit

/-- An integer in range is the number of levels of its limit. -/
theorem levels_of_ofInt {n : Int} {limit : DepthLimit} (h : ofInt n = .ok limit) :
    (limit.levels : Int) = n := by
  unfold ofInt at h
  split at h
  · cases h
  · split at h
    · cases h
    · cases h
      exact Int.toNat_of_nonneg (by omega)

/-- The levels of a limit are in range. -/
theorem ofInt_levels (limit : DepthLimit) : ofInt limit.levels = .ok limit := by
  have hpositive := limit.positive
  have hatMost := limit.atMost
  have hlargest : (largest : Int) = 125 := rfl
  rw [ofInt, dif_neg (by omega), dif_neg (by omega)]
  rfl

end DepthLimit

namespace Settings

open Yaml (Value)

/-! ## Putting entries over fields -/

/-- The settings as fields. -/
def fields (s : Settings) : Fields :=
  [("max_depth", .int s.depth.levels),
   ("log_dir", .ofText? (s.logDirectory.map Location.text)),
   ("logging_fsync", .bool s.synchronous), ("logging_tail_bytes", .int s.tailBytes),
   ("number_format", .text s.template)]

/-- The fields with the value of an entry in the place of its name. -/
def overlay (fields : Fields) (e : Value × Value) : Fields :=
  match e.1, e.2.datum? with
  | .text name, some d => fields.set name d
  | _, _ => fields

/-- The entries of a document that is accepted, with the nesting limit. -/
def accept (path : String) (v : Value) : Except Failure (List (Value × Value) × DepthLimit) := do
  let entries ← entriesOf path v
  checkKeys path entries
  entries.forM (checkType path)
  let limit ← depthOf path entries
  pure (entries, limit)

/-- The fields that the value of a document gives, with the defaults for what it does not name. -/
def configure (defaults : Fields) (cwd : Location) (file : Path) (v : Value) :
    Except Failure Fields := do
  let (entries, _) ← accept file.text v
  let fields := entries.foldl overlay defaults
  match (fields.get? "log_dir").bind Datum.points? with
  | some s => (fun l => fields.set "log_dir" (.text l.text)) <$> directoryOf cwd file s
  | none => pure fields

/-- What the entries give for a setting, as data. -/
def given (entries : List (Value × Value)) (name : String) : Option Datum :=
  (value? entries name).bind Value.datum?

/-! ## Entries that are accepted -/

/-- The entry names a setting and has a value of its type. -/
def Fits (e : Value × Value) : Prop :=
  ∃ name type, e.1 = .text name ∧ types.lookup name = some type ∧ type.fits e.2

variable {entries rest : List (Value × Value)} {e : Value × Value} {name path : String}

theorem sameKey_text (a b : String) : Value.sameKey (.text a) (.text b) = decide (a = b) := rfl

theorem value?_cons (e : Value × Value) (rest : List (Value × Value)) (name : String) :
    value? (e :: rest) name =
      if Value.sameKey e.1 (.text name) then some e.2 else value? rest name := by
  rw [value?, List.find?_cons]
  cases Value.sameKey e.1 (.text name) with
  | true => rfl
  | false => rfl

/-- The value of a setting is that of an entry. -/
theorem mem_of_value? {v : Value} (hfits : ∀ e ∈ entries, Fits e)
    (h : value? entries name = some v) : (.text name, v) ∈ entries := by
  induction entries with
  | nil => cases h
  | cons e rest ih =>
      obtain ⟨hfirst, hrest⟩ := List.forall_mem_cons.1 hfits
      rw [value?_cons] at h
      split at h
      · rename_i hsame
        obtain ⟨name', type, hkey, -, -⟩ := hfirst
        rw [hkey, sameKey_text, decide_eq_true_eq] at hsame
        cases h
        rw [← hsame, ← hkey]
        exact List.mem_cons_self
      · exact List.mem_cons_of_mem e (ih hrest h)

/-- A value of a setting has the type of the setting. -/
theorem fits_of_value? {v : Value} {type : SettingType} (hfits : ∀ e ∈ entries, Fits e)
    (h : value? entries name = some v) (htype : types.lookup name = some type) : type.fits v := by
  obtain ⟨name', type', hkey, htype', hfit⟩ := hfits _ (mem_of_value? hfits h)
  obtain rfl := Value.text.inj hkey
  rw [htype] at htype'
  obtain rfl := Option.some.inj htype'
  exact hfit

/-- No other entry has the name of one. -/
theorem value?_eq_none (hfits : ∀ e ∈ rest, Fits e)
    (hdistinct : ∀ k ∈ rest.map Prod.fst, Value.sameKey (.text name) k = false) :
    value? rest name = none := by
  cases h : value? rest name with
  | none => rfl
  | some v =>
      have hmem := List.mem_map_of_mem (f := Prod.fst) (mem_of_value? hfits h)
      have hsame := hdistinct _ hmem
      rw [sameKey_text, decide_eq_true rfl] at hsame
      cases hsame

theorem exists_datum {type : SettingType} {v : Value} (h : type.fits v) :
    ∃ d, v.datum? = some d := by
  cases v with
  | null => exact ⟨_, rfl⟩
  | bool b => exact ⟨_, rfl⟩
  | int n => exact ⟨_, rfl⟩
  | text s => exact ⟨_, rfl⟩
  | torn s => exact ⟨_, rfl⟩
  | _ => cases type <;> cases h

/-- An entry that fits is put in the place of its name. -/
theorem overlay_eq_map {fields : Fields} (hnames : fields.names = types.map Prod.fst)
    {type : SettingType} {v : Value} (htype : types.lookup name = some type) (hfit : type.fits v) :
    ∃ d, v.datum? = some d ∧ overlay fields (.text name, v) =
      fields.map fun f => (f.1, if f.1 = name then d else f.2) := by
  obtain ⟨d, hd⟩ := exists_datum hfit
  have hnodup : fields.names.Nodup := by
    rw [hnames]
    decide
  have hmem : name ∈ fields.names := by
    obtain ⟨front, rest, htypes, -⟩ := List.lookup_eq_some_iff.1 htype
    rw [hnames, htypes, List.map_append]
    exact List.mem_append_right _ List.mem_cons_self
  refine ⟨d, hd, ?_⟩
  rw [overlay, hd]
  exact Fields.set_eq_map d hnodup hmem

/-- **Entries with keys of their own are put over fields by choosing for each field**: the value of
an entry of its name, or what it was. -/
theorem foldl_overlay {fields : Fields} (hfits : ∀ e ∈ entries, Fits e)
    (hdistinct : Value.HasDistinctKeys entries) (hnames : fields.names = types.map Prod.fst) :
    entries.foldl overlay fields =
      fields.map fun f => (f.1, (given entries f.1).getD f.2) := by
  induction entries generalizing fields with
  | nil =>
      have hsame : ∀ f ∈ fields, (f.1, (given [] f.1).getD f.2) = id f := fun f _ => rfl
      rw [List.map_congr_left hsame, List.map_id]
      rfl
  | cons e rest ih =>
      obtain ⟨⟨name, type, hkey, htype, hfit⟩, hrest⟩ := List.forall_mem_cons.1 hfits
      obtain ⟨k, v⟩ := e
      obtain rfl : k = .text name := hkey
      obtain ⟨hfirst, hothers⟩ := List.pairwise_cons.1 hdistinct
      obtain ⟨d, hd, hoverlay⟩ := overlay_eq_map hnames htype hfit
      have hnames' : Fields.names (fields.map fun f => (f.1, if f.1 = name then d else f.2)) =
          types.map Prod.fst := by
        rw [← hnames, Fields.names, List.map_map]
        rfl
      rw [List.foldl_cons, hoverlay, ih hrest hothers hnames', List.map_map]
      refine List.map_congr_left fun f _ => congrArg (f.1, ·) ?_
      show (given rest f.1).getD (if f.1 = name then d else f.2) = _
      by_cases hname : f.1 = name
      · -- the name is that of the first entry, and of no other one
        have hnone : given rest f.1 = none := by
          rw [given, hname, value?_eq_none hrest hfirst]
          rfl
        have hsome : given ((.text name, v) :: rest) f.1 = some d := by
          rw [given, value?_cons, sameKey_text, if_pos (decide_eq_true hname.symm)]
          exact hd
        rw [hnone, hsome, if_pos hname]
        rfl
      · have hsame : given ((.text name, v) :: rest) f.1 = given rest f.1 := by
          rw [given, value?_cons, sameKey_text, decide_eq_false fun h => hname h.symm]
          rfl
        rw [hsame, if_neg hname]

/-- What is under a name after entries have been put over fields. -/
theorem get?_foldl_overlay {fields : Fields} (hfits : ∀ e ∈ entries, Fits e)
    (hdistinct : Value.HasDistinctKeys entries) (hnames : fields.names = types.map Prod.fst)
    (name : String) : Fields.get? (entries.foldl overlay fields) name =
      (fields.get? name).map fun d => (given entries name).getD d := by
  rw [foldl_overlay hfits hdistinct hnames]
  -- each value depends on its own name and on what it was
  clear hnames
  induction fields with
  | nil => rfl
  | cons f rest ih =>
      rw [List.map_cons, Fields.get?_cons, Fields.get?_cons, ih]
      split
      · rename_i hname
        rw [hname]
        rfl
      · rfl

/-- An entry gives the value of the setting that it names. -/
theorem value?_of_mem (hfits : ∀ e ∈ entries, Fits e) (hdistinct : Value.HasDistinctKeys entries)
    (he : e ∈ entries) (hkey : e.1 = .text name) : value? entries name = some e.2 := by
  induction entries with
  | nil => cases he
  | cons first rest ih =>
      obtain ⟨-, hrest⟩ := List.forall_mem_cons.1 hfits
      obtain ⟨hfirst, hothers⟩ := List.pairwise_cons.1 hdistinct
      rw [value?_cons]
      rcases List.mem_cons.1 he with rfl | he
      · rw [hkey, sameKey_text, if_pos (decide_eq_true rfl)]
      · have hne := hfirst e.1 (List.mem_map_of_mem he)
        rw [hkey] at hne
        rw [hne, ih hrest hothers he]
        rfl

/-! ## Documents that are accepted -/

theorem typeOf?_eq_some {k : Value} {type : SettingType} (h : typeOf? k = some type) :
    ∃ name, k = .text name ∧ types.lookup name = some type := by
  cases k with
  | text name => exact ⟨name, rfl, h⟩
  | _ => cases h

/-- All keys name settings, if none is refused. -/
theorem isSome_typeOf?_of_checkKeys (h : checkKeys path entries = .ok ()) :
    ∀ e ∈ entries, (typeOf? e.1).isSome := by
  have hunknown : ((entries.map (·.1)).filter fun k => (typeOf? k).isNone) = [] := by
    refine Classical.byContradiction fun hne => ?_
    unfold checkKeys at h
    rw [if_pos hne] at h
    -- unknown keys are refused, unless showing them fails first
    obtain ⟨keys, -, h⟩ := exists_of_bind_eq_ok h
    obtain ⟨shown, -, h⟩ := exists_of_bind_eq_ok h
    cases h
  intro e he
  have hknown := List.filter_eq_nil_iff.1 hunknown e.1 (List.mem_map_of_mem he)
  cases htype : typeOf? e.1 with
  | some type => rfl
  | none =>
      rw [htype] at hknown
      exact absurd rfl hknown

theorem checkType_of_forM (h : entries.forM (checkType path) = .ok ()) :
    ∀ e ∈ entries, checkType path e = .ok () := by
  induction entries with
  | nil => exact List.forall_mem_nil _
  | cons e rest ih =>
      replace h : checkType path e >>= (fun _ => rest.forM (checkType path)) = .ok () := h
      obtain ⟨u, hfirst, hrest⟩ := exists_of_bind_eq_ok h
      exact List.forall_mem_cons.2 ⟨hfirst, ih hrest⟩

/-- **The entries of a document that passes both checks fit.** -/
theorem fits_of_checks (hkeys : checkKeys path entries = .ok ())
    (htypes : entries.forM (checkType path) = .ok ()) : ∀ e ∈ entries, Fits e := by
  intro e he
  obtain ⟨type, htype⟩ := Option.isSome_iff_exists.1 (isSome_typeOf?_of_checkKeys hkeys e he)
  obtain ⟨name, hname, hlookup⟩ := typeOf?_eq_some htype
  have hcheck := checkType_of_forM htypes e he
  refine ⟨name, type, hname, hlookup, ?_⟩
  refine Classical.byContradiction fun hfit => ?_
  rw [checkType, htype] at hcheck
  dsimp only at hcheck
  rw [if_neg hfit] at hcheck
  -- a value of another type is refused, unless showing it fails first
  obtain ⟨key, -, hcheck⟩ := exists_of_bind_eq_ok hcheck
  obtain ⟨value, -, hcheck⟩ := exists_of_bind_eq_ok hcheck
  cases hcheck

/-! ## The same settings -/

variable {cwd : Location} {file : Path}

theorem points?_given (entries : List (Value × Value)) (name : String) :
    (given entries name).bind Datum.points? = (value? entries name).bind Value.points? := by
  rw [given, Option.bind_assoc]
  exact congrArg _ (funext Value.bind_points?_datum?)

/-- The fields of the standard settings with the entries put over them. -/
theorem foldl_overlay_standard (hfits : ∀ e ∈ entries, Fits e)
    (hdistinct : Value.HasDistinctKeys entries) :
    entries.foldl overlay standard.fields =
      [("max_depth", (given entries "max_depth").getD (.int 100)),
       ("log_dir", (given entries "log_dir").getD .null),
       ("logging_fsync", (given entries "logging_fsync").getD (.bool false)),
       ("logging_tail_bytes", (given entries "logging_tail_bytes").getD (.int Sink.standardTail)),
       ("number_format", (given entries "number_format").getD (.text standard.template))] :=
  foldl_overlay hfits hdistinct rfl

/-- The nesting limit is the integer that is given. -/
theorem depthOf_eq_ok {limit : DepthLimit} (hfits : ∀ e ∈ entries, Fits e)
    (h : depthOf path entries = .ok limit) :
    (given entries "max_depth").getD (.int 100) = .int limit.levels := by
  unfold depthOf at h
  cases hvalue : value? entries "max_depth" with
  | none =>
      rw [hvalue] at h
      cases h
      rw [given, hvalue]
      rfl
  | some v =>
      have hfit : SettingType.int.fits v := fits_of_value? hfits hvalue rfl
      cases v with
      | int n =>
          rw [hvalue] at h
          dsimp only at h
          split at h
          · cases h
          · cases hlimit : DepthLimit.ofInt n with
            | error cause =>
                rw [hlimit] at h
                cases h
            | ok limit' =>
                rw [hlimit] at h
                cases h
                rw [given, hvalue, DepthLimit.levels_of_ofInt hlimit]
                rfl
      | _ => cases hfit

/-- A truth value that is given, or the one that holds without. -/
theorem given_synchronous (hfits : ∀ e ∈ entries, Fits e) :
    (given entries "logging_fsync").getD (.bool false) =
      .bool (match value? entries "logging_fsync" with
        | some (.bool b) => b
        | _ => standard.synchronous) := by
  rw [given]
  cases hvalue : value? entries "logging_fsync" with
  | none => rfl
  | some v =>
      have hfit : SettingType.bool.fits v := fits_of_value? hfits hvalue rfl
      cases v with
      | bool b => rfl
      | _ => cases hfit

/-- An integer that is given, or the one that holds without. -/
theorem given_tailBytes (hfits : ∀ e ∈ entries, Fits e) :
    (given entries "logging_tail_bytes").getD (.int Sink.standardTail) =
      .int (match value? entries "logging_tail_bytes" with
        | some (.int n) => n
        | _ => standard.tailBytes) := by
  rw [given]
  cases hvalue : value? entries "logging_tail_bytes" with
  | none => rfl
  | some v =>
      have hfit : SettingType.int.fits v := fits_of_value? hfits hvalue rfl
      cases v with
      | int n => rfl
      | _ => cases hfit

/-- A template that is given, or the one that holds without. -/
theorem mended_given_template (hfits : ∀ e ∈ entries, Fits e) :
    ((given entries "number_format").getD (.text standard.template)).mended =
      .text (match value? entries "number_format" with
        | some (.text s) => s
        | some (.torn s) => Text.mendedText s
        | _ => standard.template) := by
  rw [given]
  cases hvalue : value? entries "number_format" with
  | none => rfl
  | some v =>
      have hfit : SettingType.text.fits v := fits_of_value? hfits hvalue rfl
      cases v with
      | text s => rfl
      | torn s => rfl
      | _ => cases hfit

/-- Without points there is no directory. -/
theorem given_directory_of_none (hfits : ∀ e ∈ entries, Fits e)
    (h : (value? entries "log_dir").bind Value.points? = none) :
    (given entries "log_dir").getD .null = .null := by
  rw [given]
  cases hvalue : value? entries "log_dir" with
  | none => rfl
  | some v =>
      have hfit : SettingType.optionalText.fits v := fits_of_value? hfits hvalue rfl
      rw [hvalue] at h
      cases v with
      | null => rfl
      | text s => cases h
      | torn s => cases h
      | _ => cases hfit

/-- The settings by the values of entries, beside those that may be refused. -/
def ofEntries (entries : List (Value × Value)) (limit : DepthLimit) (directory : Option Location) :
    Settings where
  depth := limit
  logDirectory := directory
  synchronous := match value? entries "logging_fsync" with
    | some (.bool b) => b
    | _ => standard.synchronous
  tailBytes := match value? entries "logging_tail_bytes" with
    | some (.int n) => n
    | _ => standard.tailBytes
  template := match value? entries "number_format" with
    | some (.text s) => s
    | some (.torn s) => Text.mendedText s
    | _ => standard.template

theorem ofValue_eq_accept (cwd : Location) (file : Path) (v : Value) :
    ofValue cwd file v = accept file.text v >>= fun r =>
      ofEntries r.1 r.2 <$> logDirectoryOf cwd file r.1 := by
  simp only [ofValue, accept, bind_assoc, pure_bind, map_eq_pure_bind]
  rfl

/-- **The entries that are accepted fit**, and have keys of their own. -/
theorem accept_eq_ok {d : Yaml.Document} {limit : DepthLimit}
    (h : accept path d.value = .ok (entries, limit)) :
    (∀ e ∈ entries, Fits e) ∧ Value.HasDistinctKeys entries ∧ depthOf path entries = .ok limit := by
  obtain ⟨entries', hentries, h⟩ := exists_of_bind_eq_ok h
  obtain ⟨u, hkeys, h⟩ := exists_of_bind_eq_ok h
  obtain ⟨u', htypes, h⟩ := exists_of_bind_eq_ok h
  obtain ⟨limit', hdepth, h⟩ := exists_of_bind_eq_ok h
  cases h
  refine ⟨fits_of_checks hkeys htypes, ?_, hdepth⟩
  unfold entriesOf at hentries
  split at hentries
  · split at hentries
    · rename_i entries'' hmapping
      cases hentries
      exact d.distinct entries hmapping
    · cases hentries
  · cases hentries
    exact List.Pairwise.nil

/-- Settings by the values of entries, as fields. -/
theorem fields_ofEntries {limit : DepthLimit} (hfits : ∀ e ∈ entries, Fits e)
    (hdepth : depthOf path entries = .ok limit) (directory : Option Location) :
    (ofEntries entries limit directory).fields = Fields.mended
      [("max_depth", (given entries "max_depth").getD (.int 100)),
       ("log_dir", .ofText? (directory.map Location.text)),
       ("logging_fsync", (given entries "logging_fsync").getD (.bool false)),
       ("logging_tail_bytes", (given entries "logging_tail_bytes").getD (.int Sink.standardTail)),
       ("number_format", (given entries "number_format").getD (.text standard.template))] := by
  have hdirectory : (Datum.ofText? (directory.map Location.text)).mended =
      .ofText? (directory.map Location.text) := by
    cases directory with
    | none => rfl
    | some l => rfl
  rw [Fields.mended, depthOf_eq_ok hfits hdepth, given_synchronous hfits, given_tailBytes hfits]
  simp only [List.map_cons, List.map_nil, hdirectory, mended_given_template hfits]
  rfl

theorem points?_overlaid (hfits : ∀ e ∈ entries, Fits e)
    (hdistinct : Value.HasDistinctKeys entries) :
    ((entries.foldl overlay standard.fields).get? "log_dir").bind Datum.points? =
      (value? entries "log_dir").bind Value.points? := by
  rw [foldl_overlay_standard hfits hdistinct, ← points?_given]
  show ((given entries "log_dir").getD .null).points? = _
  cases given entries "log_dir" with
  | none => rfl
  | some d => rfl

/-- **Both ways of reading settings agree.** They refuse the same documents for the same reason, and
what they give are the same fields, up to halves in the template. -/
theorem map_fields_ofValue (cwd : Location) (file : Path) (d : Yaml.Document) :
    (ofValue cwd file d.value).map fields =
      (configure standard.fields cwd file d.value).map Fields.mended := by
  rw [ofValue_eq_accept, configure]
  cases haccept : accept file.text d.value with
  | error cause => rfl
  | ok r =>
      obtain ⟨entries, limit⟩ := r
      obtain ⟨hfits, hdistinct, hdepth⟩ := accept_eq_ok haccept
      have hfields := fields_ofEntries hfits hdepth
      show Except.map fields (ofEntries entries limit <$> logDirectoryOf cwd file entries) =
        Except.map Fields.mended (match
          ((entries.foldl overlay standard.fields).get? "log_dir").bind Datum.points? with
        | some s => _
        | none => _)
      rw [points?_overlaid hfits hdistinct, foldl_overlay_standard hfits hdistinct, logDirectoryOf]
      cases hdirectory : (value? entries "log_dir").bind Value.points? with
      | none =>
          rw [given_directory_of_none hfits hdirectory]
          exact congrArg Except.ok (hfields none)
      | some s =>
          dsimp only
          cases directoryOf cwd file s with
          | error cause => rfl
          | ok l => exact congrArg Except.ok (hfields (some l))

end Settings

end Calculator
