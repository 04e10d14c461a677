import Calculator.Storage.Path

/-!
# Normal locations

A location from which no path leads elsewhere: it has no empty name, no dots and no slash in a name.
Every path leads from a normal location to a normal one (`isNormal_ofPath`), since the names of a
path have no slashes and steps up are carried out.
-/

set_option autoImplicit false

namespace Calculator

namespace Path

/-- The names have characters, are no single dots, and have no slashes. -/
def ArePlain (names : List String) : Prop := ∀ n ∈ names, n ≠ "" ∧ n ≠ "." ∧ '/' ∉ n.toList

/-- No name between slashes has one. -/
theorem slash_notMem_splitNames {s : List Char} {n : String} (h : n ∈ splitNames s) :
    '/' ∉ n.toList := by
  have hgo : ∀ (s current : List Char), '/' ∉ current → ∀ n ∈ splitNames.go current s,
      '/' ∉ n.toList := by
    intro s
    induction s with
    | nil =>
        intro current hcurrent n hn
        rw [splitNames.go, List.mem_singleton] at hn
        rw [hn, String.toList_ofList, List.mem_reverse]
        exact hcurrent
    | cons c s ih =>
        intro current hcurrent n hn
        rw [splitNames.go] at hn
        split at hn
        · rcases List.mem_cons.1 hn with rfl | hn
          · rw [String.toList_ofList, List.mem_reverse]
            exact hcurrent
          · exact ih [] List.not_mem_nil n hn
        · rename_i hc
          refine ih (c :: current) ?_ n hn
          rintro (_ | ⟨_, hmem⟩)
          · exact hc rfl
          · exact hcurrent hmem
  exact hgo s [] List.not_mem_nil n h

theorem arePlain_ofText (s : String) : ArePlain (ofText s).names := by
  intro n hn
  obtain ⟨hn, hkept⟩ := List.mem_filter.1 hn
  simp only [ne_eq, Bool.and_eq_true, decide_eq_true_eq] at hkept
  exact ⟨hkept.1, hkept.2, slash_notMem_splitNames hn⟩

theorem arePlain_parent {p : Path} (h : ArePlain p.names) : ArePlain p.parent.names :=
  fun n hn => h n (List.dropLast_subset _ hn)

theorem arePlain_join {p q : Path} (hp : ArePlain p.names) (hq : ArePlain q.names) :
    ArePlain (p.join q).names := by
  unfold join
  split
  · intro n hn
    rcases List.mem_append.1 hn with hn | hn
    · exact hp n hn
    · exact hq n hn
  · exact hq

end Path

namespace Location

/-- No name is empty, is one dot or two dots, or has a slash. -/
def IsNormal (l : Location) : Prop := Path.ArePlain l ∧ ".." ∉ l

/-- A step from a normal location leads to a normal one. -/
theorem IsNormal.step {l : Location} (h : l.IsNormal) {n : String}
    (hn : n ≠ "" ∧ n ≠ "." ∧ '/' ∉ n.toList) : (l.step n).IsNormal := by
  obtain ⟨hplain, hdots⟩ := h
  unfold Location.step
  split
  · exact ⟨fun m hm => hplain m (List.dropLast_subset _ hm),
      fun hm => hdots (List.dropLast_subset _ hm)⟩
  · rename_i hup
    constructor
    · intro m hm
      rcases List.mem_append.1 hm with hm | hm
      · exact hplain m hm
      · exact List.mem_singleton.1 hm ▸ hn
    · intro hm
      rcases List.mem_append.1 hm with hm | hm
      · exact hdots hm
      · exact hup (List.mem_singleton.1 hm).symm

/-- **A path leads from a normal location to a normal one.** -/
theorem isNormal_ofPath {cwd : Location} {p : Path} (hcwd : cwd.IsNormal)
    (hp : Path.ArePlain p.names) : (ofPath cwd p).IsNormal := by
  have hfold : ∀ names : List String, Path.ArePlain names → ∀ l : Location, l.IsNormal →
      (names.foldl Location.step l).IsNormal := by
    intro names
    induction names with
    | nil => exact fun _ l hl => hl
    | cons n rest ih =>
        intro hnames l hl
        obtain ⟨hn, hrest⟩ := List.forall_mem_cons.1 hnames
        exact ih hrest _ (hl.step hn)
  have hroot : IsNormal [] := ⟨List.forall_mem_nil _, List.not_mem_nil⟩
  unfold ofPath
  split
  · exact hfold _ hp _ hcwd
  · exact hfold _ hp _ hroot

end Location

end Calculator
