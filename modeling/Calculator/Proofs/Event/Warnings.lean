import Calculator.Proofs.Event.Working
import Mathlib.Data.List.Induction
import Mathlib.Tactic.Linarith

/-!
# Warnings

What a journal warns of, over any run of emissions. Between two emissions everything may have
changed but the warnings given so far and the moment of the last one: the sink, the files, the
clock. Warnings are at least a minute apart, and an event that cannot be written is warned of
exactly if the clock shows at least a minute and the last warning, if there has been one, was given
at least a minute ago (`warningTimes_spaced`). So nothing is warned of in the first minute of the
clock (`exists_unreported`): a journal that has given no warning takes its last one to have been
given at zero.
-/

set_option autoImplicit false

namespace Calculator

/-- An event that is emitted, the moment, and what the journal meets then. -/
structure Emission where
  now : Rat
  sink : Option Sink
  cwd : Location
  files : Files
  event : Event

/-- The event is lost: there is a sink, and it cannot write the event. -/
def Emission.Fails (m : Emission) : Prop :=
  ∃ s cause, m.sink = some s ∧ s.write m.files m.cwd m.event.prepared = .error cause

namespace Journal

/-! ## One emission -/

/-- The journal behind an emission. -/
def after (j : Journal) (m : Emission) : Journal :=
  (emit m.cwd m.now { j with sink := m.sink } m.files m.event).1

/-- The emission makes the journal give a warning. -/
def Warns (j : Journal) (m : Emission) : Prop := (j.after m).warnings ≠ j.warnings

instance (j : Journal) (m : Emission) : Decidable (j.Warns m) :=
  inferInstanceAs (Decidable (_ ≠ _))

variable {j : Journal} {m : Emission}

/-- An event that is not lost leaves the warnings alone. -/
theorem after_of_not_fails (h : ¬ m.Fails) : j.after m = { j with sink := m.sink } := by
  rw [after]
  cases hsink : m.sink with
  | none => rw [emit_of_none rfl]
  | some s =>
      cases hwrite : s.write m.files m.cwd m.event.prepared with
      | ok files' => rw [emit_of_write m.now rfl hwrite]
      | error cause => exact absurd ⟨s, cause, hsink, hwrite⟩ h

/-- An event that is lost is up for a warning. -/
theorem after_of_fails (h : m.Fails) :
    ∃ text, j.after m = warn { j with sink := m.sink } m.now text := by
  obtain ⟨s, cause, hsink, hwrite⟩ := h
  refine ⟨"logging failed: " ++ cause.message, ?_⟩
  rw [after, emit, hsink]
  dsimp only
  rw [hwrite]

/-- What an emission does to the warnings: one is given if the event is lost and the last one was
given at least a minute ago, and else all is left as it was. -/
theorem after_cases (j : Journal) (m : Emission) :
    (m.Fails ∧ 60 ≤ m.now - j.lastWarning) ∧ j.Warns m ∧ (j.after m).lastWarning = m.now ∨
      ¬ (m.Fails ∧ 60 ≤ m.now - j.lastWarning) ∧ ¬ j.Warns m ∧
        (j.after m).lastWarning = j.lastWarning := by
  by_cases hfails : m.Fails
  · obtain ⟨text, hafter⟩ := after_of_fails (j := j) hfails
    rw [Warns, hafter, warn, warningInterval]
    by_cases hrecent : m.now - j.lastWarning < 60
    · rw [if_pos hrecent]
      exact .inr ⟨fun h => absurd hrecent (not_lt.2 h.2), fun h => h rfl, rfl⟩
    · rw [if_neg hrecent]
      exact .inl ⟨⟨hfails, not_lt.1 hrecent⟩, List.cons_ne_self _ _, rfl⟩
  · rw [Warns, after_of_not_fails hfails]
    exact .inr ⟨fun h => hfails h.1, fun h => h rfl, rfl⟩

theorem warns_iff : j.Warns m ↔ m.Fails ∧ 60 ≤ m.now - j.lastWarning := by
  rcases after_cases j m with ⟨h, hwarns, -⟩ | ⟨h, hwarns, -⟩
  · exact iff_of_true hwarns h
  · exact iff_of_false hwarns h

/-! ## Runs -/

/-- Moments that are at least a minute apart. -/
def Spaced (times : List Rat) : Prop := times.Pairwise fun t t' => 60 ≤ t' - t

/-- A moment is a minute behind spaced moments if it is a minute behind the last of them. -/
theorem Spaced.forall_iff {earlier : List Rat} {last : Rat} (h : Spaced (earlier ++ [last]))
    (now : Rat) : (∀ t ∈ earlier ++ [last], 60 ≤ now - t) ↔ 60 ≤ now - last := by
  constructor
  · exact fun hall => hall last List.mem_concat_self
  · intro hlast t ht
    rcases List.mem_append.1 ht with ht | ht
    · have hapart := (List.pairwise_append.1 h).2.2 t ht last List.mem_cons_self
      linarith only [hapart, hlast]
    · rw [List.mem_singleton.1 ht]
      exact hlast

/-- The journal behind a run of emissions, of which the first meets a journal that has done
nothing. -/
def behind (ms : List Emission) : Journal := ms.foldl after silent

/-- The moments at which warnings are given over emissions, in order. -/
def warningTimesFrom (j : Journal) : List Emission → List Rat
  | [] => []
  | m :: rest => (if j.Warns m then [m.now] else []) ++ warningTimesFrom (j.after m) rest

/-- The moments at which warnings are given over a run, in order. -/
def warningTimes (ms : List Emission) : List Rat := warningTimesFrom silent ms

theorem behind_concat (ms : List Emission) (m : Emission) :
    behind (ms ++ [m]) = (behind ms).after m := by
  rw [behind, List.foldl_append]
  rfl

theorem warningTimes_concat (ms : List Emission) (m : Emission) :
    warningTimes (ms ++ [m]) =
      warningTimes ms ++ if (behind ms).Warns m then [m.now] else [] := by
  unfold warningTimes behind
  generalize silent = j
  induction ms generalizing j with
  | nil => exact List.append_nil _
  | cons m' rest ih =>
      rw [List.cons_append, warningTimesFrom, warningTimesFrom, ih (j.after m'), List.append_assoc]
      rfl

/-- What a run keeps: warnings are spaced, also from zero, and the journal knows the last of them,
or zero if there has been none. -/
theorem spaced_behind (ms : List Emission) :
    Spaced (0 :: warningTimes ms) ∧
      ∃ earlier, 0 :: warningTimes ms = earlier ++ [(behind ms).lastWarning] := by
  induction ms using List.reverseRecOn with
  | nil => exact ⟨List.pairwise_singleton _ _, [], rfl⟩
  | append_singleton ms m ih =>
      obtain ⟨hspaced, earlier, hlast⟩ := ih
      rw [warningTimes_concat, behind_concat]
      rcases after_cases (behind ms) m with ⟨⟨-, hapart⟩, hwarns, hafter⟩ | ⟨-, hwarns, hafter⟩
      · rw [if_pos hwarns, ← List.cons_append, hafter]
        -- the minute since the last warning is at least a minute since any earlier one
        refine ⟨List.pairwise_append.2 ⟨hspaced, List.pairwise_singleton _ _, ?_⟩, _, rfl⟩
        intro t ht t' ht'
        rw [hlast] at hspaced ht
        rw [List.mem_singleton.1 ht']
        exact (hspaced.forall_iff m.now).2 hapart t ht
      · rw [if_neg hwarns, List.append_nil, hafter]
        exact ⟨hspaced, earlier, hlast⟩

/-- A warning is given when something is emitted. -/
theorem exists_of_mem_warningTimes {ms : List Emission} {t : Rat} (h : t ∈ warningTimes ms) :
    ∃ m ∈ ms, m.now = t := by
  unfold warningTimes at h
  generalize silent = j at h
  induction ms generalizing j with
  | nil => cases h
  | cons m rest ih =>
      rw [warningTimesFrom] at h
      rcases List.mem_append.1 h with hfirst | hrest
      · split at hfirst
        · exact ⟨m, List.mem_cons_self, (List.mem_singleton.1 hfirst).symm⟩
        · cases hfirst
      · obtain ⟨m', hm', hnow⟩ := ih (j.after m) hrest
        exact ⟨m', List.mem_cons_of_mem m hm', hnow⟩

/-- No warning is given in the first minute of the clock. -/
theorem le_of_mem_warningTimes {ms : List Emission} {t : Rat} (h : t ∈ warningTimes ms) :
    60 ≤ t := by
  have hzero := (List.pairwise_cons.1 (spaced_behind ms).1).1 t h
  rwa [sub_zero] at hzero

/-- The next emission gives a warning if and only if its event is lost, the clock shows at least a
minute, and all earlier warnings were given at least a minute ago. -/
theorem behind_warns_iff (ms : List Emission) (m : Emission) :
    (behind ms).Warns m ↔ m.Fails ∧ 60 ≤ m.now ∧ ∀ t ∈ warningTimes ms, 60 ≤ m.now - t := by
  obtain ⟨hspaced, earlier, hlast⟩ := spaced_behind ms
  rw [hlast] at hspaced
  rw [warns_iff, ← hspaced.forall_iff, ← hlast, List.forall_mem_cons, sub_zero]

/-- A run on a clock that starts at zero or later and never goes back. -/
def OnClock (ms : List Emission) : Prop :=
  (∀ m ∈ ms, 0 ≤ m.now) ∧ (ms.map (·.now)).Pairwise (· ≤ ·)

/-- On a clock that never goes back, no warning is later than what is emitted after it. -/
theorem OnClock.le_now {ms : List Emission} {m : Emission} (h : OnClock (ms ++ [m])) {t : Rat}
    (ht : t ∈ warningTimes ms) : t ≤ m.now := by
  obtain ⟨m', hm', rfl⟩ := exists_of_mem_warningTimes ht
  have hordered := h.2
  rw [List.map_append, List.pairwise_append] at hordered
  exact hordered.2.2 _ (List.mem_map_of_mem hm') _ List.mem_cons_self

/-- **Warnings are rate-limited, and a loss is told of once the clock shows a minute.** Over every
run, whatever the clock does, any two warnings are at least a minute apart. The next emission gives
a warning if and only if its event is lost, the clock shows at least a minute, and all earlier
warnings were given at least a minute ago. So if the clock never goes back, a loss is warned of, or
there has been a warning within the last minute, if and only if the clock shows at least a
minute. -/
theorem warningTimes_spaced (ms : List Emission) (m : Emission) :
    ((warningTimes ms).Pairwise fun t t' => 60 ≤ t' - t) ∧
    ((behind ms).Warns m ↔ m.Fails ∧ 60 ≤ m.now ∧ ∀ t ∈ warningTimes ms, 60 ≤ m.now - t) ∧
    (OnClock (ms ++ [m]) → m.Fails →
      ((behind ms).Warns m ∨ (∃ t ∈ warningTimes ms, m.now - t < 60) ↔ 60 ≤ m.now)) := by
  refine ⟨(List.pairwise_cons.1 (spaced_behind ms).1).2, behind_warns_iff ms m, ?_⟩
  intro hclock hfails
  constructor
  · -- a warning before this emission was given after the first minute, and the clock has gone on
    rintro (hwarns | ⟨t, ht, -⟩)
    · exact ((behind_warns_iff ms m).1 hwarns).2.1
    · exact (le_of_mem_warningTimes ht).trans (hclock.le_now ht)
  · intro hlate
    by_cases hrecent : ∃ t ∈ warningTimes ms, m.now - t < 60
    · exact .inr hrecent
    · have hapart : ∀ t ∈ warningTimes ms, 60 ≤ m.now - t := fun t ht =>
        not_lt.1 fun hlt => hrecent ⟨t, ht, hlt⟩
      exact .inl ((behind_warns_iff ms m).2 ⟨hfails, hlate, hapart⟩)

/-- An event that is emitted while a directory is in the place of the file. -/
def blockedEmission (now : Rat) : Emission where
  now := now
  sink := some ⟨⟨"", ["logs"]⟩, Sink.standardTail⟩
  cwd := []
  files := [(["logs"], .directory), (["logs", "events.ndjson"], .directory)]
  event := .make "2024-01-02T03:04:05.678901Z" .info .replStarted "REPL started" []

theorem blockedEmission_fails (now : Rat) : (blockedEmission now).Fails := by
  have hzero : (blockedEmission 0).Fails := by
    refine ⟨_, .isDirectory (some "logs/events.ndjson"), rfl, ?_⟩
    decide +kernel
  exact hzero -- the moment plays no part in it

/-- Of two losses, at ten seconds and at seventy, the second is warned of, and it is the first
warning. -/
theorem warningTimes_spaced_blocked :
    OnClock [blockedEmission 10, blockedEmission 70] ∧
      (blockedEmission 10).Fails ∧ (blockedEmission 70).Fails ∧
      warningTimes [blockedEmission 10] = [] ∧
      (behind [blockedEmission 10]).Warns (blockedEmission 70) := by
  have hclock : OnClock [blockedEmission 10, blockedEmission 70] := by
    constructor
    · simp [blockedEmission]
    · norm_num [blockedEmission]
  have hnone : warningTimes [blockedEmission 10] = [] := by
    refine List.eq_nil_iff_forall_not_mem.2 fun t ht => ?_
    obtain ⟨m, hm, rfl⟩ := exists_of_mem_warningTimes ht
    have hlate := le_of_mem_warningTimes ht
    rw [List.mem_singleton.1 hm, blockedEmission] at hlate
    norm_num at hlate
  obtain ⟨-, -, htold⟩ := warningTimes_spaced [blockedEmission 10] (blockedEmission 70)
  refine ⟨hclock, blockedEmission_fails 10, blockedEmission_fails 70, hnone, ?_⟩
  have hlate : (60 : Rat) ≤ (blockedEmission 70).now := by
    rw [blockedEmission]
    norm_num
  rcases (htold hclock (blockedEmission_fails 70)).2 hlate with hwarns | ⟨t, ht, -⟩
  · exact hwarns
  · rw [hnone] at ht
    cases ht

/-- **A loss can go unreported**, though there has been no warning: that of an event that is the
first to be emitted, within the first minute of the clock. -/
theorem exists_unreported :
    ¬ ∀ ms m, OnClock (ms ++ [m]) → m.Fails →
      (behind ms).Warns m ∨ ∃ t ∈ warningTimes ms, m.now - t < 60 := by
  intro h
  have hclock : OnClock [blockedEmission 10] := by
    refine ⟨fun m hm => ?_, List.pairwise_singleton _ _⟩
    rw [List.mem_singleton.1 hm, blockedEmission]
    norm_num
  rcases h [] (blockedEmission 10) hclock (blockedEmission_fails 10) with hwarns | ⟨t, ht, -⟩
  · have hlate : (60 : Rat) ≤ 10 - 0 := (warns_iff.1 hwarns).2
    norm_num at hlate
  · cases ht

end Journal

end Calculator
