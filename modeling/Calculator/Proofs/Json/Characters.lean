import Calculator.Proofs.Json.Numbers
import Calculator.Proofs.Json.Strings

/-!
# The characters of JSON

Whatever data are written, a line of them is printable ASCII (`isPlain_compact`). Data over several
lines have line feeds besides, and no other control character (`isPlainOrFeed_indentedAt`).
-/

set_option autoImplicit false

namespace Calculator.Json

open Text (IsPlain)

/-! ## Plain text -/

theorem isPlain_of_isNumeric {c : Char} (h : isNumeric c = true) : IsPlain c := by
  simp only [isNumeric, Char.isDigit, Bool.or_eq_true, Bool.and_eq_true, decide_eq_true_eq] at h
  rcases h with ⟨hlow, hhigh⟩ | (((rfl | rfl) | rfl) | rfl) | rfl
  · exact ⟨Nat.le_trans (by decide : ' '.toNat ≤ '0'.toNat) hlow,
      Nat.le_trans hhigh (by decide : '9'.toNat ≤ '~'.toNat)⟩
  · decide
  · decide
  · decide
  · decide
  · decide

theorem isPlain_of_all {s : List Char} (h : (s.all fun c => decide (IsPlain c)) = true) :
    ∀ c ∈ s, IsPlain c :=
  fun c hc => of_decide_eq_true (List.all_eq_true.1 h c hc)

theorem isPlain_append {s t : List Char} (hs : ∀ c ∈ s, IsPlain c) (ht : ∀ c ∈ t, IsPlain c) :
    ∀ c ∈ s ++ t, IsPlain c :=
  List.forall_mem_append.2 ⟨hs, ht⟩

theorem isPlain_cons {c : Char} {s : List Char} (hc : IsPlain c) (hs : ∀ c ∈ s, IsPlain c) :
    ∀ c' ∈ c :: s, IsPlain c' :=
  List.forall_mem_cons.2 ⟨hc, hs⟩

/-! ## Data without inner structure -/

/-- A double is written with characters of numbers, or as a word. -/
theorem isPlain_floatChars (x : Float) : ∀ c ∈ floatChars x, IsPlain c := by
  unfold floatChars
  split
  · exact isPlain_of_all (by decide)
  · split
    · split
      · exact isPlain_of_all (by decide)
      · exact isPlain_of_all (by decide)
    · rcases floatText_cases x with hword | hnumeric
      · simp only [List.mem_cons, List.not_mem_nil, or_false] at hword
        rcases hword with h | h | h
        · exact h ▸ isPlain_of_all (by decide)
        · exact h ▸ isPlain_of_all (by decide)
        · exact h ▸ isPlain_of_all (by decide)
      · exact fun c hc => isPlain_of_isNumeric (hnumeric c hc)

theorem isPlain_numberChars (n : Number) : ∀ c ∈ numberChars n, IsPlain c := by
  cases n with
  | int n => exact fun c hc => isPlain_of_isNumeric (isNumeric_toString n c hc)
  | float x => exact isPlain_floatChars x
  | ratio q => exact isPlain_stringChars _

/-- Halves of pairs are written as escapes. -/
theorem isPlain_pointsChars (ps : List Text.Point) : ∀ c ∈ pointsChars ps, IsPlain c := by
  refine isPlain_cons (by decide) (isPlain_append ?_ (isPlain_of_all (by decide)))
  intro c hc
  obtain ⟨p, -, hc⟩ := List.mem_flatMap.1 hc
  cases p with
  | char c' => exact isPlain_charEscape c' c hc
  | half n => exact isPlain_unitEscape n c hc

theorem isPlain_scalarChars (d : Datum) : ∀ c ∈ scalarChars d, IsPlain c := by
  have hnull : ∀ c ∈ "null".toList, IsPlain c := isPlain_of_all (by decide)
  cases d with
  | bool b => cases b <;> exact isPlain_of_all (by decide)
  | number n => exact isPlain_numberChars n
  | text s => exact isPlain_stringChars s
  | torn s => exact isPlain_pointsChars s
  | null => exact hnull
  | list items => exact hnull
  | record fields => exact hnull

/-! ## Data on one line -/

mutual

/-- **A line of data is printable ASCII.** -/
theorem isPlain_compact : ∀ d : Datum, ∀ c ∈ compact d, IsPlain c
  | .null => isPlain_scalarChars .null
  | .bool b => isPlain_scalarChars (.bool b)
  | .number n => isPlain_scalarChars (.number n)
  | .text s => isPlain_scalarChars (.text s)
  | .torn s => isPlain_scalarChars (.torn s)
  | .list items => isPlain_cons (by decide)
      (isPlain_append (isPlain_compactItems items) (isPlain_of_all (by decide)))
  | .record fields => isPlain_cons (by decide)
      (isPlain_append (isPlain_compactFields fields) (isPlain_of_all (by decide)))

theorem isPlain_compactItems : ∀ items : List Datum, ∀ c ∈ compactItems items, IsPlain c
  | [] => fun _ hc => nomatch hc
  | [d] => isPlain_compact d
  | d :: e :: rest => isPlain_append (isPlain_compact d)
    (isPlain_cons (by decide) (isPlain_cons (by decide) (isPlain_compactItems (e :: rest))))

theorem isPlain_compactFields : ∀ fields : Fields, ∀ c ∈ compactFields fields, IsPlain c
  | [] => fun _ hc => nomatch hc
  | [(name, d)] => isPlain_append (isPlain_stringChars name)
    (isPlain_cons (by decide) (isPlain_cons (by decide) (isPlain_compact d)))
  | (name, d) :: f :: rest => isPlain_append (isPlain_append (isPlain_stringChars name)
    (isPlain_cons (by decide) (isPlain_cons (by decide) (isPlain_compact d))))
    (isPlain_cons (by decide) (isPlain_cons (by decide) (isPlain_compactFields (f :: rest))))

end

/-! ## Data over several lines -/

/-- Printable ASCII or a line feed. -/
def IsPlainOrFeed (c : Char) : Prop := IsPlain c ∨ c = '\n'

theorem isPlainOrFeed_of_isPlain {s : List Char} (h : ∀ c ∈ s, IsPlain c) :
    ∀ c ∈ s, IsPlainOrFeed c :=
  fun c hc => .inl (h c hc)

theorem isPlainOrFeed_append {s t : List Char} (hs : ∀ c ∈ s, IsPlainOrFeed c)
    (ht : ∀ c ∈ t, IsPlainOrFeed c) : ∀ c ∈ s ++ t, IsPlainOrFeed c :=
  List.forall_mem_append.2 ⟨hs, ht⟩

theorem isPlainOrFeed_cons {c : Char} {s : List Char} (hc : IsPlain c)
    (hs : ∀ c ∈ s, IsPlainOrFeed c) : ∀ c' ∈ c :: s, IsPlainOrFeed c' :=
  List.forall_mem_cons.2 ⟨.inl hc, hs⟩

theorem isPlainOrFeed_newline (level : Nat) : ∀ c ∈ newline level, IsPlainOrFeed c := by
  intro c hc
  rcases List.mem_cons.1 hc with rfl | hc
  · exact .inr rfl
  · obtain rfl := List.eq_of_mem_replicate hc
    exact .inl (by decide)

mutual

/-- **Data over several lines are printable ASCII and line feeds.** -/
theorem isPlainOrFeed_indentedAt : ∀ (d : Datum) (level : Nat),
    ∀ c ∈ indentedAt level d, IsPlainOrFeed c
  | .null, _ => isPlainOrFeed_of_isPlain (isPlain_scalarChars .null)
  | .bool b, _ => isPlainOrFeed_of_isPlain (isPlain_scalarChars (.bool b))
  | .number n, _ => isPlainOrFeed_of_isPlain (isPlain_scalarChars (.number n))
  | .text s, _ => isPlainOrFeed_of_isPlain (isPlain_scalarChars (.text s))
  | .torn s, _ => isPlainOrFeed_of_isPlain (isPlain_scalarChars (.torn s))
  | .list [], _ => isPlainOrFeed_of_isPlain (isPlain_of_all (s := ['[', ']']) (by decide))
  | .list (d :: rest), level => isPlainOrFeed_cons (by decide) (isPlainOrFeed_append
      (isPlainOrFeed_append (isPlainOrFeed_indentedItems (d :: rest) (level + 1))
        (isPlainOrFeed_newline level))
      (isPlainOrFeed_of_isPlain (isPlain_of_all (by decide))))
  | .record [], _ => isPlainOrFeed_of_isPlain (isPlain_of_all (s := ['\x7b', '\x7d']) (by decide))
  | .record (f :: rest), level => isPlainOrFeed_cons (by decide) (isPlainOrFeed_append
      (isPlainOrFeed_append (isPlainOrFeed_indentedFields (f :: rest) (level + 1))
        (isPlainOrFeed_newline level))
      (isPlainOrFeed_of_isPlain (isPlain_of_all (by decide))))

theorem isPlainOrFeed_indentedItems : ∀ (items : List Datum) (level : Nat),
    ∀ c ∈ indentedItems level items, IsPlainOrFeed c
  | [], _ => fun _ hc => nomatch hc
  | [d], level => isPlainOrFeed_append (isPlainOrFeed_newline level)
      (isPlainOrFeed_indentedAt d level)
  | d :: e :: rest, level => isPlainOrFeed_append
      (isPlainOrFeed_append (isPlainOrFeed_newline level) (isPlainOrFeed_indentedAt d level))
      (isPlainOrFeed_cons (by decide) (isPlainOrFeed_indentedItems (e :: rest) level))

theorem isPlainOrFeed_indentedFields : ∀ (fields : Fields) (level : Nat),
    ∀ c ∈ indentedFields level fields, IsPlainOrFeed c
  | [], _ => fun _ hc => nomatch hc
  | [(name, d)], level => isPlainOrFeed_append
      (isPlainOrFeed_append (isPlainOrFeed_newline level)
        (isPlainOrFeed_of_isPlain (isPlain_stringChars name)))
      (isPlainOrFeed_cons (by decide) (isPlainOrFeed_cons (by decide)
        (isPlainOrFeed_indentedAt d level)))
  | (name, d) :: f :: rest, level => isPlainOrFeed_append
      (isPlainOrFeed_append
        (isPlainOrFeed_append (isPlainOrFeed_newline level)
          (isPlainOrFeed_of_isPlain (isPlain_stringChars name)))
        (isPlainOrFeed_cons (by decide) (isPlainOrFeed_cons (by decide)
          (isPlainOrFeed_indentedAt d level))))
      (isPlainOrFeed_cons (by decide) (isPlainOrFeed_indentedFields (f :: rest) level))

end

end Calculator.Json
