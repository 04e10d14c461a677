import Calculator.Proofs.Results
import Calculator.Yaml.Value

/-!
# Keys of documents

No two entries of a mapping that a document stands for have one key (`distinct_read`), whatever is
written in the document. `Document` is the type of values of which that is known.
-/

set_option autoImplicit false

namespace Calculator.Yaml

namespace Value

/-! ## Entries with keys of their own -/

/-- No entry has the key of one before it. -/
def HasDistinctKeys (entries : List (Value × Value)) : Prop :=
  (entries.map Prod.fst).Pairwise fun a b => sameKey a b = false

/-- An entry is set in the place of one with its key, or behind all others. -/
theorem keys_setKey (entries : List (Value × Value)) (k v : Value) :
    (setKey entries k v).map Prod.fst = entries.map Prod.fst ∨
      (setKey entries k v).map Prod.fst = entries.map Prod.fst ++ [k] ∧
        ∀ k' ∈ entries.map Prod.fst, sameKey k' k = false := by
  induction entries with
  | nil => exact .inr ⟨rfl, List.forall_mem_nil _⟩
  | cons e rest ih =>
      obtain ⟨k', old⟩ := e
      rw [setKey]
      split
      · exact .inl rfl
      · rename_i hother
        rcases ih with hkeys | ⟨hkeys, hnew⟩
        · exact .inl (congrArg (k' :: ·) hkeys)
        · exact .inr ⟨congrArg (k' :: ·) hkeys,
            List.forall_mem_cons.2 ⟨Bool.eq_false_iff.2 hother, hnew⟩⟩

theorem HasDistinctKeys.setKey {entries : List (Value × Value)} (h : HasDistinctKeys entries)
    (k v : Value) : HasDistinctKeys (setKey entries k v) := by
  unfold HasDistinctKeys at h ⊢
  rcases keys_setKey entries k v with hkeys | ⟨hkeys, hnew⟩
  · rwa [hkeys]
  · rw [hkeys, List.pairwise_append]
    refine ⟨h, List.pairwise_singleton _ _, ?_⟩
    intro k' hk' k'' hk''
    rw [List.mem_singleton.1 hk'']
    exact hnew k' hk'

theorem hasDistinctKeys_keyed (entries : List (Value × Value)) :
    HasDistinctKeys (keyed entries) := by
  have hfold : ∀ acc, HasDistinctKeys acc →
      HasDistinctKeys (entries.foldl (fun acc e => setKey acc e.1 e.2) acc) := by
    induction entries with
    | nil => exact fun acc hacc => hacc
    | cons e rest ih => exact fun acc hacc => ih _ (hacc.setKey e.1 e.2)
  exact hfold [] List.Pairwise.nil

/-! ## Values of nodes -/

/-- Whether a value is a mapping. -/
def isMapping : Value → Bool
  | mapping _ => true
  | _ => false

theorem isMapping_ofText {tag : Tag} {s : String} {v : Value} (h : ofText tag s = .ok v) :
    v.isMapping = false := by
  unfold ofText at h
  split at h
  · cases h
    rfl
  · cases h
    rfl
  · obtain ⟨a, -, rfl⟩ := exists_of_map_eq_ok h
    rfl
  · obtain ⟨a, -, rfl⟩ := exists_of_map_eq_ok h
    rfl
  · dsimp only at h
    split at h
    · cases h
      rfl
    · split at h
      · cases h
        rfl
      · cases h
  · obtain ⟨a, -, rfl⟩ := exists_of_map_eq_ok h
    rfl
  · split at h
    · split at h
      · cases h
        rfl
      · cases h
    · cases h
  · cases h

theorem isMapping_ofScalar {tag : Tag} {s : List Text.Point} {v : Value}
    (h : ofScalar tag s = .ok v) : v.isMapping = false := by
  unfold ofScalar at h
  split at h
  · exact isMapping_ofText h
  · cases h
    rfl
  · exact isMapping_ofText h

theorem checkedAt_eq_ok {α : Type} {depth : Nat} {r : Except Failure α} {a : α}
    (h : checkedAt depth r = .ok a) : r = .ok a := by
  cases r with
  | ok b =>
      cases h
      rfl
  | error cause => cases h

/-- A mapping is made from the entries that are written. -/
theorem ofNode_eq_mapping {fuel depth : Nat} {n : Node} {entries : List (Value × Value)}
    (h : ofNode fuel depth n = .ok (.mapping entries)) : ∃ es, keyed es = entries := by
  have hscalar {tag : Tag} {s : List Text.Point}
      (hs : checkedAt depth (ofScalar tag s) = .ok (.mapping entries)) : False := by
    have hmapping := isMapping_ofScalar (checkedAt_eq_ok hs)
    cases hmapping
  cases fuel with
  | zero => cases h
  | succ fuel =>
      cases n with
      | scalar tag s => exact absurd h hscalar
      | loop ofMapping => cases h
      | sequence tag items =>
          unfold ofNode at h
          dsimp only at h
          split at h
          · obtain ⟨items, -, hitems⟩ := exists_of_map_eq_ok h
            cases hitems
          · obtain ⟨pairs, -, hpairs⟩ := exists_of_map_eq_ok h
            cases hpairs
          · cases h
          · cases h
          · cases h
      | mapping tag written =>
          unfold ofNode at h
          dsimp only at h
          split at h
          · -- the one tag that makes a mapping
            obtain ⟨es, -, hes⟩ := exists_of_map_eq_ok h
            exact ⟨es, mapping.inj hes⟩
          · obtain ⟨es, -, hes⟩ := exists_of_map_eq_ok h
            cases hes
          · cases h
          · cases h
          · split at h
            · exact absurd h hscalar
            · cases h

end Value

/-! ## Documents -/

/-- The value of a document: the entries of a mapping have keys of their own. -/
structure Document where
  value : Value
  distinct : ∀ entries, value = .mapping entries → Value.HasDistinctKeys entries

/-- **Whatever is read is the value of a document.** -/
theorem exists_document {s : List Char} {v : Value} (h : read s = .ok v) :
    ∃ d : Document, d.value = v := by
  refine ⟨⟨v, ?_⟩, rfl⟩
  rintro entries rfl
  unfold read at h
  cases hnode : document? s with
  | error cause =>
      rw [hnode] at h
      cases h
  | ok n =>
      rw [hnode] at h
      cases n with
      | none => cases h
      | some n =>
          replace h : (Value.ofNode (s.length + 2) 0 n).mapError Value.Flaw.cause =
            .ok (.mapping entries) := h
          cases hvalue : Value.ofNode (s.length + 2) 0 n with
          | error flaw =>
              rw [hvalue] at h
              cases h
          | ok v =>
              rw [hvalue] at h
              cases h
              obtain ⟨es, rfl⟩ := Value.ofNode_eq_mapping hvalue
              exact Value.hasDistinctKeys_keyed es

end Calculator.Yaml
