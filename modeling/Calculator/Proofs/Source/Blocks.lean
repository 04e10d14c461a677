import Calculator.Source.Supply

/-!
# Sources in blocks

A source that is read block by block delivers the text that it is as a whole, wherever its blocks
break off a character, and its supply ends in a failure exactly if its bytes are no text
(`Supply.ofBytes_eq_ofText_iff`). The reason is that bytes which spell a text do so whatever bytes
follow them (`Utf8.Spells`), and that bytes which are ill-formed remain so.
-/

set_option autoImplicit false

namespace Calculator

namespace Text.Utf8

/-! ## One character -/

/-- A complete character does not look at the bytes behind it. -/
theorem follow_complete {n low high code k : Nat} {bytes rest : List UInt8}
    (h : follow n low high code bytes = (.complete k, rest)) :
    ∃ part, bytes = part ++ rest ∧
      ∀ more, follow n low high code (part ++ more) = (.complete k, more) := by
  induction n generalizing low high code bytes with
  | zero =>
      rw [follow] at h
      cases h
      refine ⟨[], rfl, fun more => ?_⟩
      rw [List.nil_append, follow]
  | succ n ih =>
      cases bytes with
      | nil => cases h
      | cons b bytes =>
          rw [follow] at h
          split at h
          · rename_i hrange
            obtain ⟨part, rfl, hpart⟩ := ih h
            refine ⟨b :: part, rfl, fun more => ?_⟩
            rw [List.cons_append, follow, if_pos hrange, hpart]
          · cases h

/-- More bytes do not mend a broken character. -/
theorem follow_broken {n low high code : Nat} {bytes : List UInt8}
    (h : (follow n low high code bytes).1 = .broken) (more : List UInt8) :
    (follow n low high code (bytes ++ more)).1 = .broken := by
  induction n generalizing low high code bytes with
  | zero =>
      rw [follow] at h
      cases h
  | succ n ih =>
      cases bytes with
      | nil => cases h
      | cons b bytes =>
          rw [follow] at h
          rw [List.cons_append, follow]
          split at h
          · rename_i hrange
            rw [if_pos hrange]
            exact ih h
          · rename_i hrange
            rw [if_neg hrange]

/-- A character that is broken off takes all bytes. -/
theorem follow_truncated {n low high code : Nat} {bytes : List UInt8}
    (h : (follow n low high code bytes).1 = .truncated) :
    (follow n low high code bytes).2 = [] := by
  induction n generalizing low high code bytes with
  | zero =>
      rw [follow] at h
      cases h
  | succ n ih =>
      cases bytes with
      | nil => rfl
      | cons b bytes =>
          rw [follow] at h ⊢
          split at h
          · rename_i hrange
            rw [if_pos hrange]
            exact ih h
          · cases h

theorem step_complete {b : UInt8} {k : Nat} {bytes rest : List UInt8}
    (h : step b bytes = (.complete k, rest)) :
    ∃ part, bytes = part ++ rest ∧ ∀ more, step b (part ++ more) = (.complete k, more) := by
  unfold step at h ⊢
  cases hlead : lead? b.toNat with
  | none =>
      rw [hlead] at h
      cases h
  | some lead =>
      rw [hlead] at h
      exact follow_complete h

theorem step_broken {b : UInt8} {bytes : List UInt8} (h : (step b bytes).1 = .broken)
    (more : List UInt8) : (step b (bytes ++ more)).1 = .broken := by
  unfold step at h ⊢
  cases hlead : lead? b.toNat with
  | none => rfl
  | some lead =>
      rw [hlead] at h
      exact follow_broken h more

theorem step_truncated {b : UInt8} {bytes : List UInt8} (h : (step b bytes).1 = .truncated) :
    (step b bytes).2 = [] := by
  unfold step at h ⊢
  cases hlead : lead? b.toNat with
  | none =>
      rw [hlead] at h
      cases h
  | some lead =>
      rw [hlead] at h
      exact follow_truncated h

/-! ## Texts with bytes behind them -/

theorem decode?_nil : decode? [] = some [] := by
  rw [decode?, decodeParts]
  rfl

theorem decode?_complete {b : UInt8} {k : Nat} {bytes rest : List UInt8}
    (h : step b bytes = (.complete k, rest)) :
    decode? (b :: bytes) = (decode? rest).map (Char.ofNat k :: ·) := by
  rw [decode?, decodeParts, h, List.mapM_cons]
  cases hrest : (decodeParts rest).mapM Ending.char? <;> simp [decode?, hrest, Ending.char?]

theorem decode?_flawed {b : UInt8} {bytes : List UInt8} (h : (step b bytes).1.char? = none) :
    decode? (b :: bytes) = none := by
  rw [decode?, decodeParts, List.mapM_cons, h]
  rfl

/-- Bytes spell a text, whatever bytes follow. -/
def Spells (bytes : List UInt8) (s : List Char) : Prop :=
  ∀ more, decode? (bytes ++ more) = (decode? more).map (s ++ ·)

theorem Spells.decode? {bytes : List UInt8} {s : List Char} (h : Spells bytes s) :
    decode? bytes = some s := by
  have hnil := h []
  rwa [List.append_nil, decode?_nil, Option.map_some, List.append_nil] at hnil

theorem spells_nil : Spells [] [] := by
  intro more
  rw [List.nil_append]
  cases decode? more <;> rfl

/-- A character is spelled before a text. -/
theorem Spells.cons {b : UInt8} {k : Nat} {part bytes : List UInt8} {s : List Char}
    (hstep : ∀ more, step b (part ++ more) = (.complete k, more)) (h : Spells bytes s) :
    Spells (b :: (part ++ bytes)) (Char.ofNat k :: s) := by
  intro more
  rw [List.cons_append, List.append_assoc, decode?_complete (hstep _), h more, Option.map_map]
  rfl

/-- How far bytes spell a text: to their end, to a character broken off at their end, or to a flaw
that no further bytes mend. -/
inductive Extent (position : Nat) (bytes : List UInt8) : Prop where
  | whole {s} : flawFrom? position bytes = none → Spells bytes s → Extent position bytes
  | brokenOff {front part s} : bytes = front ++ part → decode? part = none → Spells front s →
      flawFrom? position bytes = some ⟨position + front.length, part, .truncated⟩ →
      Extent position bytes
  | flawed {f} : flawFrom? position bytes = some f → f.ending ≠ .truncated →
      (∀ more, decode? (bytes ++ more) = none) → Extent position bytes

/-- A character stands before what the bytes behind it spell. -/
theorem Extent.cons {position k : Nat} {b : UInt8} {part rest : List UInt8}
    (hpart : ∀ more, step b (part ++ more) = (.complete k, more))
    (h : Extent (position + (part.length + 1)) rest) : Extent position (b :: (part ++ rest)) := by
  have hflaw : flawFrom? position (b :: (part ++ rest)) =
      flawFrom? (position + (part.length + 1)) rest := by
    rw [flawFrom?, hpart]
    dsimp only
    rw [List.length_append, Nat.add_right_comm, Nat.add_sub_cancel]
  cases h with
  | whole hnone hspells => exact .whole (hflaw.trans hnone) (hspells.cons hpart)
  | @brokenOff front tail s happend hdecode hspells hsome =>
      subst happend
      refine .brokenOff ?_ hdecode (hspells.cons hpart) ?_
      · rw [List.cons_append, List.append_assoc]
      · rw [hflaw, hsome, List.length_cons, List.length_append, Nat.add_assoc, Nat.add_right_comm]
  | flawed hsome hending hnone =>
      refine .flawed (hflaw.trans hsome) hending fun more => ?_
      rw [List.cons_append, List.append_assoc, decode?_complete (hpart _), hnone more]
      rfl

/-- An ill-formed part at the front is the flaw. -/
theorem extent_of_flawed {position : Nat} {b : UInt8} {bytes : List UInt8}
    (h : ∀ k, (step b bytes).1 ≠ .complete k) : Extent position (b :: bytes) := by
  have hflaw : flawFrom? position (b :: bytes) =
      some ⟨position, (b :: bytes).take (bytes.length + 1 - (step b bytes).2.length),
        (step b bytes).1⟩ := by
    rw [flawFrom?]
    split
    · rename_i k hcomplete
      exact absurd hcomplete (h k)
    · rfl
  cases hending : (step b bytes).1 with
  | complete k => exact absurd hending (h k)
  | broken =>
      refine .flawed hflaw (by rw [hending]; exact fun h => by cases h) fun more => ?_
      rw [List.cons_append]
      apply decode?_flawed
      rw [step_broken hending]
      rfl
  | truncated =>
      have hall : (b :: bytes).take (bytes.length + 1 - (step b bytes).2.length) = b :: bytes := by
        rw [step_truncated hending]
        exact List.take_of_length_le (Nat.le_refl _)
      refine .brokenOff (List.nil_append _).symm ?_ spells_nil ?_
      · apply decode?_flawed
        rw [hending]
        rfl
      · rw [hflaw, hending, hall]
        rfl

-- The induction is along the characters and ill-formed parts, as `flawFrom?` passes them.
theorem extent (position : Nat) (bytes : List UInt8) : Extent position bytes := by
  induction position, bytes using flawFrom?.induct with
  | case1 position =>
      refine .whole ?_ spells_nil
      rw [flawFrom?]
  | case2 position b bytes size k hcomplete ih =>
      have hstep : step b bytes = (.complete k, (step b bytes).2) := Prod.ext hcomplete rfl
      have hsize : size = bytes.length + 1 - (step b bytes).2.length := rfl
      clear_value size
      generalize (step b bytes).2 = rest at hstep hsize ih
      obtain ⟨part, rfl, hpart⟩ := step_complete hstep
      rw [List.length_append, Nat.add_right_comm, Nat.add_sub_cancel] at hsize
      exact .cons hpart (hsize ▸ ih)
  | case3 position b bytes hflawed => exact extent_of_flawed hflawed

/-- The front of bytes that can be read is what they spell, and otherwise no further bytes make them
a text. -/
theorem decodeFront?_cases (bytes : List UInt8) :
    (∃ front part s, bytes = front ++ part ∧ (part = [] ∨ decode? part = none) ∧ Spells front s ∧
        decodeFront? bytes = some (s, part)) ∨
      decodeFront? bytes = none ∧ ∀ more, decode? (bytes ++ more) = none := by
  cases extent 0 bytes with
  | @whole s hnone hspells =>
      refine .inl ⟨bytes, [], s, (List.append_nil _).symm, .inl rfl, hspells, ?_⟩
      rw [decodeFront?, hnone, hspells.decode?]
      rfl
  | @brokenOff front part s happend hdecode hspells hsome =>
      refine .inl ⟨front, part, s, happend, .inr hdecode, hspells, ?_⟩
      have htake : bytes.take (0 + front.length) = front := by
        rw [happend, Nat.zero_add, List.take_left]
      rw [decodeFront?, hsome]
      dsimp only
      rw [htake, hspells.decode?]
      rfl
  | @flawed f hsome hending hnone =>
      refine .inr ⟨?_, hnone⟩
      obtain ⟨position, part, ending⟩ := f
      rw [decodeFront?, hsome]
      cases ending with
      | truncated => exact absurd rfl hending
      | complete k => rfl
      | broken => rfl

end Text.Utf8

open Text.Utf8

namespace Supply

/-! ## Blocks -/

theorem flatten_blocksWithin {n : Nat} {bytes : List UInt8} (h : bytes.length ≤ n * blockSize) :
    (blocksWithin n bytes).flatten = bytes := by
  induction n generalizing bytes with
  | zero =>
      rw [Nat.zero_mul] at h
      exact (List.eq_nil_of_length_eq_zero (Nat.eq_zero_of_le_zero h)).symm
  | succ n ih =>
      cases bytes with
      | nil => rfl
      | cons b bytes =>
          have hrest : ((b :: bytes).drop blockSize).length ≤ n * blockSize := by
            rw [List.length_drop]
            rw [Nat.succ_mul] at h
            exact Nat.sub_le_of_le_add h
          rw [blocksWithin, List.flatten_cons, ih hrest, List.take_append_drop]
          exact fun h => by cases h

/-- The blocks are all of the bytes. -/
theorem flatten_blocks (bytes : List UInt8) : (blocks bytes).flatten = bytes := by
  apply flatten_blocksWithin
  rw [Nat.mul_comm]
  exact Nat.le_of_lt (Nat.lt_mul_div_succ _ (by decide))

/-- **Blocks deliver the text that they are together**, if the bytes held back before them are none
or no text. -/
theorem deliver_eq_iff {held : List UInt8} {blocks : List (List UInt8)} {s : List Char}
    (h : held = [] ∨ decode? held = none) :
    deliver held blocks = (s, none) ↔ decode? (held ++ blocks.flatten) = some s := by
  induction blocks generalizing held s with
  | nil =>
      rw [List.flatten_nil, List.append_nil, deliver]
      rcases h with rfl | h
      · rw [if_pos rfl, decode?_nil]
        simp
      · have hheld : held ≠ [] := by
          rintro rfl
          rw [decode?_nil] at h
          cases h
        rw [if_neg hheld, h]
        simp
  | cons block rest ih =>
      rw [List.flatten_cons, ← List.append_assoc, deliver]
      rcases decodeFront?_cases (held ++ block) with
        ⟨front, part, t, happend, hpart, hspells, hfront⟩ | ⟨hfront, hnone⟩
      · rw [hfront, happend, List.append_assoc, hspells]
        dsimp only
        constructor
        · intro hdeliver
          obtain ⟨rfl, hfailure⟩ := Prod.mk.inj hdeliver
          rw [(ih hpart).1 (Prod.ext rfl hfailure)]
          rfl
        · intro hdecode
          obtain ⟨u, hu, rfl⟩ := Option.map_eq_some_iff.1 hdecode
          rw [(ih hpart).2 hu]
      · rw [hfront, hnone]
        simp

/-- A character that two blocks share is delivered whole. -/
example : deliver [] [[0x31, 0xE2, 0x82], [0xAC]] = (['1', '\u20AC'], none) := by decide +kernel

/-! ## Whole sources -/

/-- **A source delivers, block by block, the text that it is as a whole**, without a failure exactly
if it is a text. -/
theorem ofBytes_eq_ofText_iff {bytes : List UInt8} {text : List Char} :
    ofBytes bytes = ofText text ↔ sourceOfBytes bytes = .ok text := by
  have hwhole {s : List Char} : deliver [] (blocks bytes) = (s, none) ↔ decode? bytes = some s := by
    rw [deliver_eq_iff (.inl rfl), List.nil_append, flatten_blocks]
  rw [ofBytes, sourceOfBytes]
  rcases hdeliver : deliver [] (blocks bytes) with ⟨s, failure?⟩
  cases failure? with
  | none =>
      rw [hwhole.1 hdeliver, ofText]
      simp
  | some cause =>
      cases hdecode : decode? bytes with
      | none => simp [ofText]
      | some t =>
          rw [hwhole.2 hdecode] at hdeliver
          cases hdeliver

theorem failure?_ofBytes_eq_none_iff {bytes : List UInt8} :
    (ofBytes bytes).failure? = none ↔ ∃ text, sourceOfBytes bytes = .ok text := by
  constructor
  · intro h
    refine ⟨(ofBytes bytes).text, ofBytes_eq_ofText_iff.1 ?_⟩
    rw [ofText, ← h]
  · rintro ⟨text, htext⟩
    rw [ofBytes_eq_ofText_iff.2 htext, ofText]

end Supply

end Calculator
