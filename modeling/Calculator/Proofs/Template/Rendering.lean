import Calculator.Proofs.Template.Parts

/-!
# Templates for doubles

The fields of a template are expanded in order, and the first one that cannot be expanded decides
what comes of the template. If it does not suit its value, or the template is malformed there, the
text that shows the value takes the place of the whole. Rendering fails if the field asks for what
there is not: an argument with a name, another argument than the only one, a part that the double
does not have (`Lacks`), or more room than there is. Such a field may stand in the specification of
another one (`Stops`). Rendering a double fails exactly if the template stops
(`render_eq_error_iff`), and the template that holds unless another one is set suits each double
(`exists_suits_general`).

The host may lead a field astray, to integers and objects of its own (`Strays`). These may fail for
themselves, as `Stops` says too. Without such a field a template stops for what there is not and for
nothing else (`kind_of_stops`).
-/

set_option autoImplicit false

namespace Calculator.Template

variable {host : Host} {value : Datum} {x : Float} {numbering next : Numbering} {name s : List Char}
  {part : Part} {cause : Failure} {depth : Nat}

/-! ## Names of fields -/

/-- The argument that a field name starts with. -/
def argumentName (name : List Char) : List Char := name.takeWhile fun c => c ≠ '.' && c ≠ '['

/-- The accesses to the argument of a field name. -/
def accesses (name : List Char) : List Char := name.dropWhile fun c => c ≠ '.' && c ≠ '['

/-- The number of the argument that is named, or the next number without a name. -/
def argumentOf (numbering : Numbering) (first : List Char) : Except Refusal (Nat × Numbering) :=
  if first = [] then numbering.nextIndex
  else do
    match ← nameNumber first with
    | some n => do
      let numbering ← numbering.withManual
      pure (n, numbering)
    | none => .error (.failure (.formatKey (String.ofList first)))

theorem resolve_eq (host : Host) (value : Datum) (numbering : Numbering) (name : List Char) :
    resolve host value numbering name =
      argumentOf numbering (argumentName name) >>= fun r =>
        if r.1 = 0 then
          (·, r.2) <$> accessFrom host ((accesses name).length + 1) (.datum value) (accesses name)
        else .error (.failure (.formatIndex r.1)) := by
  unfold resolve argumentOf argumentName accesses
  dsimp only
  split
  · cases numbering.nextIndex with
    | error r => rfl
    | ok r => rfl
  · cases nameNumber (name.takeWhile fun c => c ≠ '.' && c ≠ '[') with
    | error r => rfl
    | ok n? =>
        cases n? with
        | none => rfl
        | some n =>
            cases numbering.withManual with
            | error r => rfl
            | ok next => rfl

/-- A name that is no number is no argument. All else that is wrong with the argument makes a
template unsuitable. -/
theorem argumentOf_eq_failure_iff {first : List Char} :
    argumentOf numbering first = .error (.failure cause) ↔
      first ≠ [] ∧ nameNumber first = .ok none ∧ cause = .formatKey (String.ofList first) := by
  unfold argumentOf
  split
  · rename_i hfirst
    cases numbering with
    | undecided => simp [Numbering.nextIndex, hfirst]
    | automatic n => simp [Numbering.nextIndex, hfirst]
    | manual => simp [Numbering.nextIndex, hfirst]
  · rename_i hfirst
    rw [bind_eq_error_iff]
    constructor
    · rintro (h | ⟨n?, hnumber, h⟩)
      · exact absurd h nameNumber_ne_failure
      · cases n? with
        | none =>
            cases h
            exact ⟨hfirst, hnumber, rfl⟩
        | some n =>
            rcases bind_eq_error_iff.1 h with h | ⟨next, -, h⟩
            · cases numbering <;> cases h
            · cases h
    · rintro ⟨-, hnumber, rfl⟩
      exact .inr ⟨none, hnumber, rfl⟩

/-- What the name of a field asks for and does not get. -/
inductive Lacks (host : Host) (value : Datum) (numbering : Numbering) (name : List Char) :
    Failure → Prop where
  /-- An argument with a name. -/
  | named : argumentName name ≠ [] → nameNumber (argumentName name) = .ok none →
      Lacks host value numbering name (.formatKey (String.ofList (argumentName name)))
  /-- Another argument than the only one. -/
  | numbered {index : Nat} {next : Numbering} :
      argumentOf numbering (argumentName name) = .ok (index, next) → index ≠ 0 →
      Lacks host value numbering name (.formatIndex index)
  /-- A part that the argument does not have. -/
  | part {next : Numbering} {cause : Failure} :
      argumentOf numbering (argumentName name) = .ok (0, next) →
      Part.Misses host (.datum value) (accesses name) cause → Lacks host value numbering name cause

/-- **A field name fails exactly if it asks for what there is not.** -/
theorem resolve_eq_failure_iff :
    resolve host value numbering name = .error (.failure cause) ↔
      Lacks host value numbering name cause := by
  have hfuel : (accesses name).length < (accesses name).length + 1 := Nat.lt_succ_self _
  rw [resolve_eq, bind_eq_error_iff, argumentOf_eq_failure_iff]
  constructor
  · rintro (⟨hname, hnumber, rfl⟩ | ⟨⟨index, next⟩, hargument, h⟩)
    · exact .named hname hnumber
    · dsimp only at h
      split at h
      · rename_i hzero
        subst hzero
        rw [map_eq_error_iff, Part.accessFrom_eq_failure_iff hfuel] at h
        exact .part hargument h
      · rename_i hindex
        cases h
        exact .numbered hargument hindex
  · rintro (⟨hname, hnumber⟩ | ⟨hargument, hindex⟩ | ⟨hargument, hmisses⟩)
    · exact .inl ⟨hname, hnumber, rfl⟩
    · exact .inr ⟨_, hargument, if_neg hindex⟩
    · refine .inr ⟨_, hargument, ?_⟩
      dsimp only
      rw [if_pos rfl, map_eq_error_iff, Part.accessFrom_eq_failure_iff hfuel]
      exact hmisses

/-- The name of a field leads away from the parts near its value. -/
def LeadsAstray (host : Host) (value : Datum) (name : List Char) : Prop :=
  Part.Strays host (.datum value) (accesses name)

theorem isNear_double (x : Float) : (Part.datum (.number (.float x))).IsNear := trivial

/-- A field of a double stands for a part near it, unless its name leads astray. -/
theorem isNear_of_resolve (hstay : ¬ LeadsAstray host (.number (.float x)) name)
    (h : resolve host (.number (.float x)) numbering name = .ok (part, next)) : part.IsNear := by
  rw [resolve_eq] at h
  obtain ⟨⟨index, numbering'⟩, -, h⟩ := exists_of_bind_eq_ok h
  dsimp only at h
  split at h
  · obtain ⟨q, haccess, hq⟩ := exists_of_map_eq_ok h
    cases hq
    exact (isNear_double x).of_accessFrom hstay haccess
  · cases h

theorem kind_of_lacks (h : Lacks host (.number (.float x)) numbering name cause) :
    (cause.kind = .key ∨ cause.kind = .attribute ∨ cause.kind = .index) ∨
      LeadsAstray host (.number (.float x)) name := by
  cases h with
  | named _ _ => exact .inl (.inl rfl)
  | numbered _ _ => exact .inl (.inr (.inr rfl))
  | part _ hmisses => exact ((isNear_double x).kind_of_misses hmisses).imp_left .inr

/-! ## Fields in order -/

/-- The specification of a field once the fields in it have been expanded. -/
def expandedSpec (expandSpec : Numbering → List Char → Except Refusal (List Char × Numbering))
    (numbering : Numbering) (spec : List Char) : Except Refusal (List Char × Numbering) :=
  if '{' ∈ spec then expandSpec numbering spec else pure (spec, numbering)

variable {expandSpec : Numbering → List Char → Except Refusal (List Char × Numbering)}

/-- Pieces fail in the first one that does. -/
theorem expandPieces_eq_error_iff {pieces : List Piece} {r : Refusal} :
    expandPieces host expandSpec value numbering pieces = .error r ↔
      ∃ before p after text reached, pieces = before ++ p :: after ∧
        expandPieces host expandSpec value numbering before = .ok (text, reached) ∧
        expandPiece host expandSpec value reached p = .error r := by
  induction pieces generalizing numbering with
  | nil =>
      constructor
      · exact nofun
      · rintro ⟨before, p, after, text, reached, hpieces, -⟩
        exact absurd hpieces.symm (List.append_ne_nil_of_right_ne_nil _ (List.cons_ne_nil _ _))
  | cons first rest ih =>
      rw [expandPieces, bind_eq_error_iff]
      constructor
      · rintro (hfirst | ⟨⟨s, next⟩, hfirst, h⟩)
        · exact ⟨[], first, rest, [], numbering, rfl, rfl, hfirst⟩
        · rcases bind_eq_error_iff.1 h with h | ⟨_, -, h⟩
          · obtain ⟨before, p, after, text, reached, rfl, hbefore, hp⟩ := ih.1 h
            refine ⟨first :: before, p, after, s ++ text, reached, rfl, ?_, hp⟩
            rw [expandPieces, hfirst]
            dsimp only [bind, Except.bind]
            rw [hbefore]
            rfl
          · cases h
      · rintro ⟨before, p, after, text, reached, hpieces, hbefore, hp⟩
        cases before with
        | nil =>
            obtain ⟨rfl, -⟩ := List.cons.inj hpieces
            cases hbefore
            exact .inl hp
        | cons q before =>
            obtain ⟨rfl, hrest⟩ := List.cons.inj hpieces
            rw [expandPieces] at hbefore
            obtain ⟨⟨s, next⟩, hfirst, h⟩ := exists_of_bind_eq_ok hbefore
            obtain ⟨⟨t, last⟩, hothers, h⟩ := exists_of_bind_eq_ok h
            cases h
            have hfails := ih.2 ⟨before, p, after, t, _, hrest, hothers, hp⟩
            exact .inr ⟨_, hfirst, bind_eq_error_iff.2 (.inl hfails)⟩

theorem expandPiece_field (host : Host) (value : Datum) (numbering : Numbering)
    (name : List Char) (conversion : Option Char) (spec : List Char) :
    expandPiece host expandSpec value numbering (.field name conversion spec) =
      resolve host value numbering name >>= fun r =>
        convert host r.1 conversion >>= fun shown =>
          expandedSpec expandSpec r.2 spec >>= fun e =>
            shown.present host e.1 >>= fun text => pure (text, e.2) := by
  refine bind_congr fun r => bind_congr fun shown => ?_
  unfold expandedSpec
  dsimp only
  split
  · rfl
  · rfl

/-- **A field fails for its name, in its conversion, in its specification, or when it is
presented.** -/
theorem expandPiece_field_eq_failure_iff {conversion : Option Char} {spec : List Char} :
    expandPiece host expandSpec value numbering (.field name conversion spec) =
        .error (.failure cause) ↔
      Lacks host value numbering name cause ∨
        ∃ part next, resolve host value numbering name = .ok (part, next) ∧
          (convert host part conversion = .error (.failure cause) ∨
            ∃ shown, convert host part conversion = .ok shown ∧
              (expandedSpec expandSpec next spec = .error (.failure cause) ∨
                ∃ chars last, expandedSpec expandSpec next spec = .ok (chars, last) ∧
                  shown.Fails host chars cause)) := by
  rw [expandPiece_field, bind_eq_error_iff, resolve_eq_failure_iff, Prod.exists]
  refine or_congr_right
    (exists_congr fun part => exists_congr fun next => and_congr_right fun _ => ?_)
  rw [bind_eq_error_iff]
  refine or_congr_right (exists_congr fun shown => and_congr_right fun _ => ?_)
  rw [bind_eq_error_iff, Prod.exists]
  refine or_congr_right
    (exists_congr fun chars => exists_congr fun last => and_congr_right fun _ => ?_)
  -- once there is a presentation nothing can fail
  rw [bind_eq_error_iff, Part.present_eq_failure_iff]
  exact or_iff_left fun ⟨_, _, h⟩ => by cases h

/-! ## Whole templates -/

/-- A field of a template that is reached: all pieces before it are expanded. -/
def Reaches (host : Host) (value : Datum) (depth : Nat) (numbering : Numbering) (s : List Char)
    (field : Piece) (reached : Numbering) : Prop :=
  ∃ before after text, pieces s = before ++ field :: after ∧
    expandPieces host (expand host value depth) value numbering before = .ok (text, reached)

/-- A template fails in a field that is reached. -/
theorem expand_succ_eq_failure_iff :
    expand host value (depth + 1) numbering s = .error (.failure cause) ↔
      ∃ name conversion spec reached,
        Reaches host value depth numbering s (.field name conversion spec) reached ∧
        expandPiece host (expand host value depth) value reached (.field name conversion spec) =
          .error (.failure cause) := by
  rw [expand, expandPieces_eq_error_iff]
  constructor
  · rintro ⟨before, p, after, text, reached, hpieces, hbefore, hp⟩
    cases p with
    | literal t => cases hp
    | malformed => cases hp
    | field name conversion spec =>
        exact ⟨name, conversion, spec, reached, ⟨before, after, text, hpieces, hbefore⟩, hp⟩
  · rintro ⟨name, conversion, spec, reached, ⟨before, after, text, hpieces, hbefore⟩, hfield⟩
    exact ⟨before, _, after, text, reached, hpieces, hbefore, hfield⟩

/-- A template stops at a field that asks for what there is not, or that fails elsewhere. The
specifications of its fields are templates down to the given depth. -/
inductive Stops (host : Host) (value : Datum) : Nat → Numbering → List Char → Failure → Prop where
  /-- The field asks for an argument or a part that there is not. -/
  | name {depth numbering s name conversion spec reached cause} :
      Reaches host value depth numbering s (.field name conversion spec) reached →
      Lacks host value reached name cause → Stops host value (depth + 1) numbering s cause
  /-- The conversion of a part elsewhere fails. -/
  | conversion {depth numbering s name conversion spec reached part next cause} :
      Reaches host value depth numbering s (.field name conversion spec) reached →
      resolve host value reached name = .ok (part, next) → ¬ part.IsNear →
      convert host part conversion = .error (.failure cause) →
      Stops host value (depth + 1) numbering s cause
  /-- The specification of the field stops. -/
  | spec {depth numbering s name conversion spec reached part next shown cause} :
      Reaches host value depth numbering s (.field name conversion spec) reached →
      resolve host value reached name = .ok (part, next) →
      convert host part conversion = .ok shown → '{' ∈ spec →
      Stops host value depth next spec cause → Stops host value (depth + 1) numbering s cause
  /-- The field asks for more room than there is, or stands for a part elsewhere that fails. -/
  | presentation {depth numbering s name conversion spec reached part next shown chars last cause} :
      Reaches host value depth numbering s (.field name conversion spec) reached →
      resolve host value reached name = .ok (part, next) →
      convert host part conversion = .ok shown →
      expandedSpec (expand host value depth) next spec = .ok (chars, last) →
      shown.Fails host chars cause → Stops host value (depth + 1) numbering s cause

/-- **Expanding a template fails exactly if the template stops.** -/
theorem expand_eq_failure_iff :
    expand host value depth numbering s = .error (.failure cause) ↔
      Stops host value depth numbering s cause := by
  -- a specification is a template of the next lower depth, so the induction is on the depth
  induction depth generalizing numbering s with
  | zero =>
      constructor
      · exact nofun
      · exact nofun
  | succ depth ih =>
      simp only [expand_succ_eq_failure_iff, expandPiece_field_eq_failure_iff]
      constructor
      · rintro ⟨name, conversion, spec, reached, hreaches, hlacks | ⟨part, next, hresolve,
          hconvert | ⟨shown, hconvert, h | ⟨chars, last, hspec, hfails⟩⟩⟩⟩
        · exact .name hreaches hlacks
        · exact .conversion hreaches hresolve (fun hnear => hnear.convert_ne_failure hconvert)
            hconvert
        · unfold expandedSpec at h
          split at h
          · exact .spec hreaches hresolve hconvert ‹_› (ih.1 h)
          · cases h
        · exact .presentation hreaches hresolve hconvert hspec hfails
      · intro h
        cases h with
        | name hreaches hlacks => exact ⟨_, _, _, _, hreaches, .inl hlacks⟩
        | conversion hreaches hresolve _ hconvert =>
            exact ⟨_, _, _, _, hreaches, .inr ⟨_, _, hresolve, .inl hconvert⟩⟩
        | spec hreaches hresolve hconvert hbrace hstops =>
            refine ⟨_, _, _, _, hreaches, .inr ⟨_, _, hresolve, .inr ⟨_, hconvert, .inl ?_⟩⟩⟩
            rw [expandedSpec, if_pos hbrace]
            exact ih.2 hstops
        | presentation hreaches hresolve hconvert hspec hfails =>
            exact ⟨_, _, _, _, hreaches,
              .inr ⟨_, _, hresolve, .inr ⟨_, hconvert, .inr ⟨_, _, hspec, hfails⟩⟩⟩⟩

/-- A template has a field, in itself or in a specification, whose name leads astray. -/
inductive Strays (host : Host) (value : Datum) : Nat → Numbering → List Char → Prop where
  | name {depth numbering s name conversion spec reached} :
      Reaches host value depth numbering s (.field name conversion spec) reached →
      LeadsAstray host value name → Strays host value (depth + 1) numbering s
  | spec {depth numbering s name conversion spec reached part next shown} :
      Reaches host value depth numbering s (.field name conversion spec) reached →
      resolve host value reached name = .ok (part, next) →
      convert host part conversion = .ok shown → '{' ∈ spec →
      Strays host value depth next spec → Strays host value (depth + 1) numbering s

/-- **A template stops for an argument, a part or room that there is not, and for nothing else**,
unless a field goes astray. -/
theorem kind_of_stops (h : Stops host (.number (.float x)) depth numbering s cause) :
    (cause.kind = .key ∨ cause.kind = .attribute ∨ cause.kind = .index ∨ cause = .noMemory) ∨
      Strays host (.number (.float x)) depth numbering s := by
  induction h with
  | name hreaches hlacks =>
      exact (kind_of_lacks hlacks).imp (.imp_right (.imp_right .inl)) (.name hreaches)
  | @conversion _ _ _ name _ _ _ _ _ _ hreaches hresolve hfar _ =>
      refine .inr (.name hreaches ?_)
      exact Classical.byContradiction fun hstay => hfar (isNear_of_resolve hstay hresolve)
  | spec hreaches hresolve hconvert hbrace _ ih =>
      exact ih.imp_right (.spec hreaches hresolve hconvert hbrace)
  | presentation hreaches hresolve hconvert _ hfails =>
      cases hfails with
      | room _ => exact .inl (.inr (.inr (.inr rfl)))
      | elsewhere hfar _ =>
          refine .inr (.name hreaches (Classical.byContradiction fun hstay => ?_))
          exact hfar ((isNear_of_resolve hstay hresolve).of_convert hconvert)

/-- A host that stays near leads no field of a template for a double astray. -/
theorem not_strays (hhost : host.StaysNear) :
    ¬ Strays host (.number (.float x)) depth numbering s := by
  intro h
  induction h with
  | name _ hastray => exact Part.not_strays hhost (isNear_double x) hastray
  | spec _ _ _ _ _ ih => exact ih

/-! ## Rendering -/

/-- A template stops at a value. -/
def StopsAt (host : Host) (template : String) (value : Datum) (cause : Failure) : Prop :=
  Stops host value nestingDepth .undecided template.toList cause

/-- A template goes astray at a value. -/
def StraysAt (host : Host) (template : String) (value : Datum) : Prop :=
  Strays host value nestingDepth .undecided template.toList

/-- A template suits a value and gives a text to it. -/
def Suits (host : Host) (template : String) (value : Datum) (text : String) : Prop :=
  ∃ last, expand host value nestingDepth .undecided template.toList = .ok (text.toList, last)

/-- A template that is malformed or does not suit a value. -/
def IsUnsuitable (host : Host) (template : String) (value : Datum) : Prop :=
  expand host value nestingDepth .undecided template.toList = .error .unsuitable

variable {template text : String}

/-- **Where nothing is attached to values, a template stops for what there is not, and for nothing
else.** -/
theorem kind_of_stopsAt_bare (h : StopsAt .bare template (.number (.float x)) cause) :
    cause.kind = .key ∨ cause.kind = .attribute ∨ cause.kind = .index ∨ cause = .noMemory :=
  (kind_of_stops h).resolve_right (not_strays Host.staysNear_bare)

/-- A double can be shown. -/
theorem shownText_double (x : Float) :
    (Datum.number (.float x)).shownText = .ok (Datum.number (.float x)).shown :=
  rfl

/-- **Rendering a double fails exactly if the template stops.** -/
theorem render_eq_error_iff : render template (.number (.float x)) host = .error cause ↔
    StopsAt host template (.number (.float x)) cause := by
  rw [StopsAt, ← expand_eq_failure_iff, render]
  cases expand host (.number (.float x)) nestingDepth .undecided template.toList with
  | ok r => simp
  | error r =>
      cases r with
      | unsuitable => simp [shownText_double]
      | failure cause' => simp

/-- **A double is rendered by a template that suits it, and shown otherwise.** -/
theorem render_eq_ok_iff : render template (.number (.float x)) host = .ok text ↔
    Suits host template (.number (.float x)) text ∨
      IsUnsuitable host template (.number (.float x)) ∧ text = (Datum.number (.float x)).shown := by
  rw [Suits, IsUnsuitable, render]
  cases expand host (.number (.float x)) nestingDepth .undecided template.toList with
  | ok r =>
      obtain ⟨s, last⟩ := r
      have htext : String.ofList s = text ↔ s = text.toList :=
        ⟨fun h => h ▸ String.toList_ofList.symm, fun h => h ▸ String.ofList_toList⟩
      simp [htext]
  | error r =>
      cases r with
      | unsuitable => simp [shownText_double, eq_comm]
      | failure cause' => simp

/-- The template that holds unless another one is set suits each double. -/
theorem exists_suits_general (host : Host) (x : Float) :
    ∃ text, Suits host "\x7b:.10g\x7d" (.number (.float x)) text := by
  obtain ⟨s, last, h⟩ : ∃ s last, expand host (.number (.float x)) nestingDepth .undecided
      "\x7b:.10g\x7d".toList = .ok (s, last) := ⟨_, _, rfl⟩
  have hchars : (String.ofList s).toList = s := String.toList_ofList
  exact ⟨String.ofList s, last, h.trans (by rw [hchars])⟩

end Calculator.Template
