import Calculator.Proofs.Results
import Calculator.Storage.Files

/-!
# Files that grow

Making a directory keeps all that is there and adds nothing but directories
(`grown_makeDirectory`), so the bytes of every file stay as they are. Appending puts bytes behind
those of a file that may be missing so far (`bytes?_append`).
-/

set_option autoImplicit false

namespace Calculator

namespace Files

variable {files files' files'' : Files} {l m : Location} {n : Node}

/-! ## Nodes that are set -/

theorem get?_set_self (hl : l ≠ []) : (files.set l n).get? l = some n := by
  rw [get?, if_neg hl]
  induction files with
  | nil => simp [set]
  | cons entry rest ih =>
      by_cases h : entry.1 = l
      · simp [set, h]
      · have hl : (l == entry.1) = false := beq_eq_false_iff_ne.2 (Ne.symm h)
        rw [set, if_neg h, List.lookup_cons, hl]
        exact ih

theorem get?_set_of_ne (h : m ≠ l) : (files.set l n).get? m = files.get? m := by
  unfold get?
  split
  · rfl
  · induction files with
    | nil => simp [set, h]
    | cons entry rest ih =>
        obtain ⟨k, old⟩ := entry
        by_cases hk : k = l
        · subst hk
          have hm : (m == k) = false := beq_eq_false_iff_ne.2 h
          simp [set, List.lookup_cons, hm]
        · rw [set, if_neg hk, List.lookup_cons, List.lookup_cons, ih]

theorem ne_nil_of_get? (h : files.get? l = none) : l ≠ [] := by
  rintro rfl
  cases h

/-! ## Directories -/

/-- Files in which nothing is lost and only directories are new. -/
def Grown (files files' : Files) : Prop :=
  ∀ l, files'.get? l = files.get? l ∨
    files.get? l = none ∧ files'.get? l = some .directory

theorem Grown.refl (files : Files) : Grown files files := fun _ => .inl rfl

theorem Grown.trans (h : Grown files files') (h' : Grown files' files'') : Grown files files'' := by
  intro l
  -- what is new in the end was new at one of the two steps
  rcases h' l with hsame' | ⟨hnone', hnew'⟩
  · exact hsame'.symm ▸ h l
  · rcases h l with hsame | ⟨-, hnew⟩
    · exact .inr ⟨hsame ▸ hnone', hnew'⟩
    · rw [hnew] at hnone'
      cases hnone'

/-- New directories change the bytes of no file. -/
theorem Grown.bytes?_eq (h : Grown files files') (l : Location) :
    files'.bytes? l = files.bytes? l := by
  rcases h l with hsame | ⟨hnone, hnew⟩
  · rw [bytes?, bytes?, hsame]
  · -- a directory has no bytes, and what is missing has none either
    rw [bytes?, bytes?, hnone, hnew]
    rfl

theorem grown_set_directory (h : files.get? l = none) : Grown files (files.set l .directory) := by
  intro m
  by_cases hm : m = l
  · subst hm
    exact .inr ⟨h, get?_set_self (ne_nil_of_get? h)⟩
  · exact .inl (get?_set_of_ne hm)

variable {cwd : Location}

theorem grown_makeOne {path : String} (h : files.makeOne cwd path = .ok files') :
    Grown files files' := by
  obtain ⟨l, -, h⟩ := exists_of_bind_eq_ok h
  cases hl : files.get? l with
  | none =>
      rw [hl] at h
      cases h
      exact grown_set_directory hl
  | some n =>
      rw [hl] at h
      cases n with
      | directory =>
          cases h
          exact Grown.refl files
      | file pieces => cases h

theorem grown_makeAll {root : String} {names : List String}
    (h : files.makeAll cwd root names = .ok files') : Grown files files' := by
  induction names generalizing files' with
  | nil =>
      cases h
      exact Grown.refl files
  | cons name before ih =>
      rw [makeAll] at h
      -- either the directory is made at once, or after the one it belongs to
      split at h
      · obtain ⟨between, hbefore, hone⟩ := exists_of_bind_eq_ok h
        exact (ih hbefore).trans (grown_makeOne hone)
      · exact grown_makeOne h

/-- **Making a directory loses nothing.** -/
theorem grown_makeDirectory {p : Path} (h : files.makeDirectory cwd p = .ok files') :
    Grown files files' :=
  grown_makeAll h

/-! ## Appending -/

/-- **Appended bytes come behind those that are there**, if any. -/
theorem bytes?_append {path : String} {bytes : List UInt8}
    (h : files.append path l bytes = .ok files') :
    files'.bytes? l = some ((files.bytes? l).getD [] ++ bytes) := by
  unfold append at h
  cases hl : files.get? l with
  | none =>
      rw [hl] at h
      cases h
      rw [bytes?, bytes?, get?_set_self (ne_nil_of_get? hl), hl]
      exact Node.bytes?_ofBytes bytes
  | some n =>
      rw [hl] at h
      cases n with
      | directory => cases h
      | file pieces =>
          have hne : l ≠ [] := by
            rintro rfl
            cases hl
          cases h
          rw [bytes?, bytes?, get?_set_self hne, hl]
          exact Node.bytes?_file_cons bytes pieces

end Files

end Calculator
