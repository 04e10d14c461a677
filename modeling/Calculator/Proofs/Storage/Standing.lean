import Calculator.Proofs.Storage.Growth

/-!
# Directories that stand

A path that leads somewhere only passes directories, so it leads to the same place as long as these
stay (`locate_of_keeps`). A directory that has been made is therefore found when it is made again,
and nothing changes then (`makeDirectory_of_keeps`), whatever files have been put beside it.
-/

set_option autoImplicit false

namespace Calculator.Files

variable {files files' files'' : Files} {cwd l m : Location} {path : String}

/-- All directories of some files are directories of others. -/
def Keeps (files files' : Files) : Prop :=
  ∀ l, files.get? l = some .directory → files'.get? l = some .directory

theorem Keeps.refl (files : Files) : Keeps files files := fun _ h => h

theorem Keeps.trans (h : Keeps files files') (h' : Keeps files' files'') : Keeps files files'' :=
  fun l hl => h' l (h l hl)

theorem Grown.keeps (h : Grown files files') : Keeps files files' := by
  intro l hl
  rcases h l with hsame | ⟨hnone, -⟩
  · rw [hsame, hl]
  · rw [hl] at hnone
    cases hnone

/-- Where no directory stands, a node can be put without a loss of directories. -/
theorem keeps_set {n : Node} (h : files.get? l ≠ some .directory) :
    Keeps files (files.set l n) := by
  intro m hm
  have hne : m ≠ l := by
    rintro rfl
    exact h hm
  rw [get?_set_of_ne hne, hm]

/-! ## Paths -/

theorem enter_of_keeps {name : String} (hkeeps : Keeps files files')
    (h : files.enter path l name = .ok m) : files'.enter path l name = .ok m := by
  unfold enter at h ⊢
  cases hl : files.get? l with
  | none =>
      rw [hl] at h
      cases h
  | some n =>
      rw [hl] at h
      cases n with
      | file pieces => cases h
      | directory =>
          rw [hkeeps l hl]
          exact h

theorem foldlM_enter_of_keeps (hkeeps : Keeps files files') (names : List String) :
    ∀ {l : Location}, names.foldlM (files.enter path) l = .ok m →
      names.foldlM (files'.enter path) l = .ok m := by
  induction names with
  | nil => exact fun h => h
  | cons name rest ih =>
      intro l h
      rw [List.foldlM_cons] at h ⊢
      obtain ⟨next, hnext, hrest⟩ := exists_of_bind_eq_ok h
      rw [enter_of_keeps hkeeps hnext]
      exact ih hrest

/-- A path leads to the same place as long as all directories are kept. -/
theorem locate_of_keeps (hkeeps : Keeps files files') (h : files.locate cwd path = .ok l) :
    files'.locate cwd path = .ok l := by
  unfold locate at h ⊢
  split at h
  · cases h
  · rename_i hzero
    rw [if_neg hzero]
    split at h
    · cases h
    · rename_i hempty
      rw [if_neg hempty]
      split at h
      · cases h
      · rename_i hlong
        rw [if_neg hlong]
        exact foldlM_enter_of_keeps hkeeps _ h

/-! ## Making directories again -/

/-- A directory that has been made stands where its path leads to. -/
theorem makeOne_stands (h : files.makeOne cwd path = .ok files') :
    ∃ l, files'.locate cwd path = .ok l ∧ files'.get? l = some .directory := by
  have hkeeps := (grown_makeOne h).keeps
  obtain ⟨l, hlocate, h⟩ := exists_of_bind_eq_ok h
  refine ⟨l, locate_of_keeps hkeeps hlocate, ?_⟩
  cases hl : files.get? l with
  | none =>
      rw [hl] at h
      cases h
      exact get?_set_self (ne_nil_of_get? hl)
  | some n =>
      rw [hl] at h
      cases n with
      | directory =>
          cases h
          exact hl
      | file pieces => cases h

/-- A directory that is there is not made again. -/
theorem makeOne_of_isDirectory (hlocate : files.locate cwd path = .ok l)
    (hl : files.get? l = some .directory) : files.makeOne cwd path = .ok files := by
  rw [makeOne, hlocate]
  dsimp only [bind, Except.bind]
  rw [hl]
  rfl

theorem makeOne_of_keeps (h : files.makeOne cwd path = .ok files') (hkeeps : Keeps files' files'') :
    files''.makeOne cwd path = .ok files'' := by
  obtain ⟨l, hlocate, hl⟩ := makeOne_stands h
  exact makeOne_of_isDirectory (locate_of_keeps hkeeps hlocate) (hkeeps l hl)

theorem makeAll_of_keeps {root : String} {names : List String}
    (h : files.makeAll cwd root names = .ok files') (hkeeps : Keeps files' files'') :
    files''.makeAll cwd root names = .ok files'' := by
  cases names with
  | nil => rfl
  | cons name before =>
      -- the last step of making the directory was to make it inside one that was there
      obtain ⟨between, hone⟩ : ∃ between : Files,
          between.makeOne cwd (Path.text ⟨root, (name :: before).reverse⟩) = .ok files' := by
        rw [makeAll] at h
        split at h
        · obtain ⟨between, -, hone⟩ := exists_of_bind_eq_ok h
          exact ⟨between, hone⟩
        · exact ⟨files, h⟩
      rw [makeAll]
      simp only [makeOne_of_keeps hone hkeeps]

/-- **A directory that has been made is there for good**: as long as no directory is lost, making it
again changes nothing. -/
theorem makeDirectory_of_keeps {p : Path} (h : files.makeDirectory cwd p = .ok files')
    (hkeeps : Keeps files' files'') : files''.makeDirectory cwd p = .ok files'' :=
  makeAll_of_keeps h hkeeps

end Calculator.Files
