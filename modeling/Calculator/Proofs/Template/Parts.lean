import Calculator.Proofs.Results
import Calculator.Template.Render

/-!
# Parts that a double leads to

From a double the field of a template can reach its parts, the kinds of these, and texts, but no
integer, list or record, unless the host leads it astray (`IsNear.of_accessFrom`). A conversion
makes a text of such a part (`IsNear.of_convert`). So an access fails only for an attribute that is
not there or a position behind the end (`IsNear.kind_of_misses`), and a presentation only for a
width beyond the largest (`present_eq_failure_iff`): whatever else is wrong makes the template
unsuitable.

What the host attaches to values is a parameter here as well. A host that attaches nothing but texts
and kinds, as their documentation is, leads nowhere else (`not_strays`).
-/

set_option autoImplicit false

namespace Calculator.Template

/-- An access takes a part of the rest of a field name. -/
theorem length_lt_of_takeAccess {s rest : List Char} {a : Access}
    (h : takeAccess s = some (a, rest)) : rest.length < s.length := by
  unfold takeAccess at h
  split at h
  · rename_i s
    dsimp only at h
    split at h
    · cases h
    · cases h
      exact Nat.lt_succ_of_le (List.dropWhile_suffix _).length_le
  · rename_i s
    split at h
    · rename_i c rest' hbehind
      dsimp only at h
      split at h
      · cases h
      · cases h
        have hle := (List.dropWhile_suffix (l := s) fun c => decide (c ≠ ']')).length_le
        rw [hbehind] at hle
        exact Nat.lt_succ_of_lt hle
    · cases h
  · cases h

/-- A number in a field name that is too large makes the template unsuitable. -/
theorem nameNumber_ne_failure {s : List Char} {cause : Failure} :
    nameNumber s ≠ .error (.failure cause) := by
  intro h
  unfold nameNumber at h
  split at h
  · cases h
  · split at h <;> cases h

/-- A part that can be reached from a double: the double itself, one of its parts, the text or the
kind of something. -/
def Part.IsNear : Part → Prop
  | datum (.number (.float _)) | datum .null | datum (.text _) | kind _ | kinds _ => True
  | _ => False

/-- A host that attaches only such parts to such parts. -/
def Host.StaysNear (host : Host) : Prop :=
  ∀ (p q : Part) (name : String), p.IsNear → host.attribute? p name = some q → q.IsNear

theorem Host.staysNear_bare : Host.bare.StaysNear := nofun

namespace Part

variable {host : Host} {p q : Part} {s : List Char} {fuel : Nat} {cause : Failure} {a : Access}

/-! ## Attributes and items -/

theorem isNear_floatPart? {x : Float} {name : String} {d : Datum} (h : floatPart? x name = some d) :
    IsNear (datum d) := by
  unfold floatPart? at h
  split at h <;> cases h
  · trivial
  · trivial

theorem isNear_kindPart? {k : Kind} {name : String} (h : kindPart? k name = some q) :
    q.IsNear := by
  unfold kindPart? at h
  split at h <;> cases h
  case h_4 =>
    cases k.base? with
    | none => trivial
    | some base => trivial
  all_goals trivial

theorem IsNear.of_ownAttribute? {name : String} (hp : p.IsNear)
    (h : p.ownAttribute? name = some q) : q.IsNear := by
  unfold ownAttribute? at h
  split at h
  · obtain ⟨k, -, rfl⟩ := Option.map_eq_some_iff.1 h
    trivial
  · cases p with
    | datum d =>
        obtain ⟨d', hpart, rfl⟩ := Option.map_eq_some_iff.1 h
        cases d with
        | number n =>
            cases n with
            | float x => exact isNear_floatPart? hpart
            | int n => exact hp.elim
            | ratio r => exact hp.elim
        | bool b => exact hp.elim
        | _ => cases hpart
    | kind k => exact isNear_kindPart? h
    | kinds ks => cases h
    | object id => exact hp.elim

theorem kind_missing (host : Host) (p : Part) (name : String) :
    (p.missing host name).kind = .attribute := by
  cases p with
  | datum d => rfl
  | kind k => rfl
  | kinds ks => rfl
  | object id => rfl

/-- What an access gives. -/
def follow (host : Host) (p : Part) : Access → Except Refusal Part
  | .attribute name => p.select host (String.ofList name)
  | .item key => do p.item host (← nameNumber key) (String.ofList key)

theorem accessFrom_succ (host : Host) (fuel : Nat) (p : Part) (c : Char) (s : List Char) :
    accessFrom host (fuel + 1) p (c :: s) =
      match takeAccess (c :: s) with
      | none => .error .unsuitable
      | some (a, rest) => p.follow host a >>= fun q => accessFrom host fuel q rest := by
  rw [accessFrom]
  split
  · rename_i h
    rw [h]
  · rename_i h
    rw [h]
    rfl
  · rename_i h
    rw [h]
    exact (bind_assoc _ _ _).symm
  · exact nofun

/-- A way along the accesses of a field name on which one fails. -/
inductive Misses (host : Host) : Part → List Char → Failure → Prop where
  | here {p s a rest cause} : takeAccess s = some (a, rest) →
      p.follow host a = .error (.failure cause) → Misses host p s cause
  | later {p q s a rest cause} : takeAccess s = some (a, rest) → p.follow host a = .ok q →
      Misses host q rest cause → Misses host p s cause

/-- A way along the accesses of a field name that leads away from the parts near a double. -/
inductive Strays (host : Host) : Part → List Char → Prop where
  | here {p q s a rest} : takeAccess s = some (a, rest) → p.follow host a = .ok q → ¬ q.IsNear →
      Strays host p s
  | later {p q s a rest} : takeAccess s = some (a, rest) → p.follow host a = .ok q →
      Strays host q rest → Strays host p s

/-- **Accesses fail exactly if one on their way does.** There are never more of them than are
followed. -/
theorem accessFrom_eq_failure_iff (h : s.length < fuel) :
    accessFrom host fuel p s = .error (.failure cause) ↔ Misses host p s cause := by
  -- each access takes at least one character, so the fuel lasts
  induction fuel generalizing p s with
  | zero => cases h
  | succ fuel ih =>
      cases s with
      | nil =>
          constructor
          · exact nofun
          · rintro (⟨htake, -⟩ | ⟨htake, -, -⟩)
            · cases htake
            · cases htake
      | cons c s =>
          rw [accessFrom_succ]
          cases htake : takeAccess (c :: s) with
          | none =>
              constructor
              · exact nofun
              · rintro (⟨htake', -⟩ | ⟨htake', -, -⟩)
                · cases htake.symm.trans htake'
                · cases htake.symm.trans htake'
          | some taken =>
              obtain ⟨a, rest⟩ := taken
              have hrest : rest.length < fuel :=
                Nat.lt_of_lt_of_le (length_lt_of_takeAccess htake) (Nat.le_of_lt_succ h)
              dsimp only
              rw [bind_eq_error_iff]
              constructor
              · rintro (hhere | ⟨q, hfollow, hlater⟩)
                · exact .here htake hhere
                · exact .later htake hfollow ((ih hrest).1 hlater)
              · rintro (⟨htake', hhere⟩ | ⟨htake', hfollow, hlater⟩)
                · cases htake.symm.trans htake'
                  exact .inl hhere
                · cases htake.symm.trans htake'
                  exact .inr ⟨_, hfollow, (ih hrest).2 hlater⟩

/-- What comes of an access to a part near a double. -/
inductive Reached (host : Host) (p : Part) : Except Refusal Part → Prop where
  | near {q : Part} : q.IsNear → Reached host p (.ok q)
  /-- An attribute that the host adds. -/
  | added {q : Part} {name : String} : host.attribute? p name = some q → Reached host p (.ok q)
  | unsuitable : Reached host p (.error .unsuitable)
  /-- An attribute that is not there, or a position behind the end. -/
  | missing {cause : Failure} : cause.kind = .attribute ∨ cause.kind = .index →
      Reached host p (.error (.failure cause))

theorem IsNear.reached_select (hp : p.IsNear) (name : String) :
    Reached host p (p.select host name) := by
  unfold select
  split
  · rename_i q hattribute
    rw [attribute?, Option.orElse_eq_orElse, Option.orElse_eq_or, Option.or_eq_some_iff]
      at hattribute
    rcases hattribute with hown | ⟨-, hadded⟩
    · exact .near (hp.of_ownAttribute? hown)
    · exact .added hadded
  · exact .missing (.inl (kind_missing host p name))

theorem reached_nth {α : Type} {f : α → Part} (hf : ∀ a, (f a).IsNear) (sequenceKind : String)
    (items : List α) (n : Nat) : Reached host p (f <$> nth sequenceKind items n) := by
  unfold nth
  cases items[n]? with
  | none => exact .missing (.inr rfl)
  | some a => exact .near (hf a)

/-- An item of a text is a text, and one of several kinds is a kind. -/
theorem IsNear.reached_item (hp : p.IsNear) (number? : Option Nat) (name : String) :
    Reached host p (p.item host number? name) := by
  unfold item
  split
  · exact reached_nth (f := fun c => datum (.text (String.ofList [c]))) (fun _ => trivial) _ _ _
  · exact hp.elim
  · exact reached_nth (f := kind) (fun _ => trivial) _ _ _
  · exact hp.elim
  · exact hp.elim
  · exact hp.elim
  · exact .unsuitable

/-- **From a part near a double an access leads to such a part**, unless the host adds another
one. -/
theorem IsNear.reached_follow (hp : p.IsNear) (a : Access) : Reached host p (p.follow host a) := by
  rcases a with name | key
  · exact hp.reached_select _
  · show Reached host p (nameNumber key >>= fun number? => p.item host number? _)
    cases hnumber : nameNumber key with
    | ok number? => exact hp.reached_item number? _
    | error r =>
        cases r with
        | unsuitable => exact .unsuitable
        | failure cause => exact absurd hnumber nameNumber_ne_failure

/-- What follows an access to a part near a double is near it as well, if the host stays near. -/
theorem IsNear.of_follow (hhost : host.StaysNear) (hp : p.IsNear) (h : p.follow host a = .ok q) :
    q.IsNear := by
  have hreached : Reached host p (p.follow host a) := hp.reached_follow a
  rw [h] at hreached
  cases hreached with
  | near hq => exact hq
  | added hadded => exact hhost p q _ hp hadded

/-- **A host that stays near leads no field astray.** -/
theorem not_strays (hhost : host.StaysNear) (hp : p.IsNear) : ¬ Strays host p s := by
  intro h
  induction h with
  | here _ hfollow hnear => exact hnear (hp.of_follow hhost hfollow)
  | later _ hfollow _ ih => exact ih (hp.of_follow hhost hfollow)

/-- An access to a part near a double fails for an attribute that is not there, or for a position
behind the end. -/
theorem IsNear.kind_of_follow (hp : p.IsNear) (h : p.follow host a = .error (.failure cause)) :
    cause.kind = .attribute ∨ cause.kind = .index := by
  have hreached : Reached host p (p.follow host a) := hp.reached_follow a
  rw [h] at hreached
  cases hreached with
  | missing hkind => exact hkind

theorem IsNear.kind_of_misses (hp : p.IsNear) (h : Misses host p s cause) :
    (cause.kind = .attribute ∨ cause.kind = .index) ∨ Strays host p s := by
  induction h with
  | here _ hhere => exact .inl (hp.kind_of_follow hhere)
  | @later p q s a rest cause htake hfollow _ ih =>
      by_cases hq : q.IsNear
      · exact (ih hq).imp_right (.later htake hfollow)
      · exact .inr (.here htake hfollow hq)

/-- A field that does not go astray stands for a part near a double. -/
theorem IsNear.of_accessFrom (hp : p.IsNear) (hstay : ¬ Strays host p s)
    (h : accessFrom host fuel p s = .ok q) : q.IsNear := by
  induction fuel generalizing p s with
  | zero =>
      cases s with
      | nil =>
          cases h
          exact hp
      | cons c s => cases h
  | succ fuel ih =>
      cases s with
      | nil =>
          cases h
          exact hp
      | cons c s =>
          rw [accessFrom_succ] at h
          split at h
          · cases h
          · rename_i htake
            obtain ⟨next, hfollow, h⟩ := exists_of_bind_eq_ok h
            have hnext : next.IsNear :=
              Classical.byContradiction fun hfar => hstay (.here htake hfollow hfar)
            exact ih hnext (fun hlater => hstay (.later htake hfollow hlater)) h

/-! ## Texts and presentations -/

/-- A part near a double has a text, since it holds no integer. -/
theorem IsNear.exists_text (hp : p.IsNear) (f : Datum → String)
    (ofObject : Nat → Except Refusal (List Char)) :
    ∃ t, p.textBy (·.ifWritable f) ofObject = .ok t := by
  cases p with
  | datum d =>
      have hwritable : d.isWritable = true := by
        cases d with
        | number n =>
            cases n with
            | float x => rfl
            | int n => exact hp.elim
            | ratio r => exact hp.elim
        | null => rfl
        | text t => rfl
        | _ => exact hp.elim
      refine ⟨(f d).toList, ?_⟩
      rw [textBy, Datum.ifWritable, if_pos hwritable]
  | kind k => exact ⟨_, rfl⟩
  | kinds ks => exact ⟨_, rfl⟩
  | object id => exact hp.elim

/-- A conversion keeps a part, or makes a text of it. -/
theorem IsNear.of_convert {c : Option Char} (hp : p.IsNear) (h : convert host p c = .ok q) :
    q.IsNear := by
  unfold Template.convert at h
  split at h
  · cases h
    exact hp
  · obtain ⟨t, -, rfl⟩ := exists_of_map_eq_ok h
    trivial
  · obtain ⟨t, -, rfl⟩ := exists_of_map_eq_ok h
    trivial
  · obtain ⟨t, -, rfl⟩ := exists_of_map_eq_ok h
    trivial
  · cases h

theorem IsNear.convert_ne_failure {c : Option Char} (hp : p.IsNear) :
    convert host p c ≠ .error (.failure cause) := by
  obtain ⟨shown, hshown⟩ := hp.exists_text Datum.shown host.shown
  obtain ⟨written, hwritten⟩ := hp.exists_text Datum.written host.written
  intro h
  unfold Template.convert at h
  split at h
  · cases h
  · cases hshown.symm.trans (map_eq_error_iff.1 h)
  · cases hwritten.symm.trans (map_eq_error_iff.1 h)
  · cases hwritten.symm.trans (map_eq_error_iff.1 h)
  · cases h

theorem presentFloat_ne_failure {spec : Spec} {x : Float} :
    presentFloat spec x ≠ .error (.failure cause) := by
  intro h
  unfold presentFloat at h
  split at h
  · cases h
  · dsimp only at h
    split at h
    · cases h
    · cases h

theorem presentText_ne_failure {spec : Spec} {t : List Char} :
    presentText spec t ≠ .error (.failure cause) := by
  intro h
  unfold presentText at h
  split at h
  · cases h
  · cases h

/-- A specification whose width alone is why a presentation cannot follow it. -/
def IsTooWide (usual : Alignment) (usualType : Option Char) (s : List Char)
    (present : Spec → Except Refusal (List Char)) : Prop :=
  ∃ spec, Spec.ofChars? usual usualType s = some spec ∧ largestWidth < spec.width.getD 0 ∧
    ∃ t, present { spec with width := none } = .ok t

/-- **A presentation that does not fail for itself fails for its width alone.** -/
theorem withSpec_eq_failure_iff {usual : Alignment} {usualType : Option Char}
    {present : Spec → Except Refusal (List Char)}
    (h : ∀ spec cause, present spec ≠ .error (.failure cause)) :
    withSpec usual usualType s present = .error (.failure cause) ↔
      cause = .noMemory ∧ IsTooWide usual usualType s present := by
  unfold withSpec IsTooWide
  cases hspec : Spec.ofChars? usual usualType s with
  | none => simp
  | some spec =>
      dsimp only
      by_cases hwidth : spec.width.getD 0 ≤ largestWidth
      · rw [if_pos hwidth]
        constructor
        · exact fun hfail => absurd hfail (h spec cause)
        · rintro ⟨-, spec', hspec', hwide, -⟩
          cases hspec'
          exact absurd hwidth (Nat.not_le.2 hwide)
      · rw [if_neg hwidth, bind_eq_error_iff]
        constructor
        · rintro (hfail | ⟨t, ht, hfail⟩)
          · exact absurd hfail (h _ cause)
          · cases hfail
            exact ⟨rfl, spec, rfl, Nat.lt_of_not_le hwidth, t, ht⟩
        · rintro ⟨rfl, spec', hspec', -, t, ht⟩
          cases hspec'
          exact .inr ⟨t, ht, rfl⟩

/-- A part near a double that a specification suits but for its width. -/
def Overflows : Part → List Char → Prop
  | datum (.number (.float x)), s => s ≠ [] ∧ IsTooWide .right none s (presentFloat · x)
  | datum (.text t), s => s ≠ [] ∧ IsTooWide .left (some 's') s (presentText · t.toList)
  | _, _ => False

/-- **The presentation of a part near a double fails for its width alone.** -/
theorem IsNear.present_eq_failure_iff (hp : p.IsNear) :
    p.present host s = .error (.failure cause) ↔ cause = .noMemory ∧ p.Overflows s := by
  by_cases hs : s = []
  · subst hs
    obtain ⟨t, ht⟩ : ∃ t, p.present host [] = .ok t := by
      obtain ⟨t, ht⟩ := hp.exists_text Datum.shown host.shown
      cases p with
      | object id => exact hp.elim
      | _ => exact ⟨t, ht⟩
    have hnot : ¬ p.Overflows [] := by
      unfold Overflows
      split
      · exact fun h => h.1 rfl
      · exact fun h => h.1 rfl
      · exact id
    constructor
    · intro h
      cases ht.symm.trans h
    · exact fun h => absurd h.2 hnot
  · cases p with
    | datum d =>
        cases d with
        | number n =>
            cases n with
            | float x =>
                have hpresent : (datum (.number (.float x))).present host s =
                    withSpec .right none s (presentFloat · x) := if_neg hs
                rw [hpresent, withSpec_eq_failure_iff fun _ _ => presentFloat_ne_failure,
                  Overflows, and_iff_right hs]
            | int n => exact hp.elim
            | ratio r => exact hp.elim
        | text t =>
            have hpresent : (datum (.text t)).present host s =
                withSpec .left (some 's') s (presentText · t.toList) := if_neg hs
            rw [hpresent, withSpec_eq_failure_iff fun _ _ => presentText_ne_failure,
              Overflows, and_iff_right hs]
        | null =>
            have hpresent : (datum .null).present host s = .error .unsuitable := if_neg hs
            simp [hpresent, Overflows]
        | _ => exact hp.elim
    | kind k => simp [present, Overflows, hs]
    | kinds ks => simp [present, Overflows, hs]
    | object id => exact hp.elim

/-- The failure of a presentation. -/
inductive Fails (host : Host) (p : Part) (s : List Char) : Failure → Prop where
  /-- A part near a double asks for more room than there is. -/
  | room : p.Overflows s → Fails host p s .noMemory
  /-- A part elsewhere fails for itself. -/
  | elsewhere {cause : Failure} : ¬ p.IsNear → p.present host s = .error (.failure cause) →
      Fails host p s cause

theorem Overflows.isNear (h : p.Overflows s) : p.IsNear := by
  unfold Overflows at h
  split at h
  · trivial
  · trivial
  · exact h.elim

theorem present_eq_failure_iff :
    p.present host s = .error (.failure cause) ↔ p.Fails host s cause := by
  constructor
  · intro h
    by_cases hp : p.IsNear
    · obtain ⟨rfl, hwide⟩ := hp.present_eq_failure_iff.1 h
      exact .room hwide
    · exact .elsewhere hp h
  · intro h
    cases h with
    | room hwide => exact hwide.isNear.present_eq_failure_iff.2 ⟨rfl, hwide⟩
    | elsewhere _ h => exact h

end Part

end Calculator.Template
