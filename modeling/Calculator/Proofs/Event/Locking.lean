import Calculator.Event.Sink
import Calculator.Proofs.Storage.Growth
import Calculator.Settings

/-!
# Locking

Files of events are guarded by locks or they are not. Writing does the same in both ways, and so
does reading as long as the tail that is read has no negative size (`answer_read_eq_iff`). Requests
that follow each other then give the same answers and leave the same files (`answers_eq_iff`). A
settings file can ask for a tail of any size (`ofValue_tailBytes`), also of a negative one, and then
the two ways differ at every file that is there.
-/

set_option autoImplicit false

namespace Calculator

namespace Sink

/-- What a sink is asked for. -/
inductive Request where
  | write (e : Event)
  | read (level type : Option String) (limit : Int)

/-- What a request gives: nothing for an event that is written, else the events that are read. Of
failures only the kind counts. -/
abbrev Answer : Type := Except FailureKind (Option (List Datum))

/-- What was done, or the kind of the failure to do it. -/
def answerOf {α : Type} (found : α → Option (List Datum)) : Except Failure α → Answer
  | .ok a => .ok (found a)
  | .error cause => .error cause.kind

/-- The answer to a request, and the files behind it. -/
def answer (locking : Locking) (files : Files) (cwd : Location) (s : Sink) :
    Request → Answer × Files
  | .write e =>
    let written := s.write files cwd e
    (answerOf (fun _ => none) written, written.toOption.getD files)
  | .read level type limit => (answerOf some (s.read locking files cwd level type limit), files)

/-- The answers to requests that follow each other, each with the files behind it. -/
def answers (locking : Locking) (files : Files) (cwd : Location) (s : Sink) :
    List Request → List (Answer × Files)
  | [] => []
  | r :: rest =>
    let first := s.answer locking files cwd r
    first :: s.answers locking first.2 cwd rest

variable {files : Files} {cwd : Location} {s : Sink} {level type : Option String} {limit : Int}

/-! ## One request -/

theorem filterBy_nil (name : String) (wanted : Option String) :
    filterBy name wanted [] = .ok [] := by
  unfold filterBy
  split
  · rfl
  · split
    · rfl
    · rfl

/-- Of no events none are read. -/
theorem read_of_readAll_nil {locking : Locking} (h : s.readAll locking files cwd = .ok []) :
    s.read locking files cwd level type limit = .ok [] := by
  unfold read
  rw [h]
  show filterBy "level" level [] >>= _ = _
  rw [filterBy_nil]
  show filterBy "event_type" type [] >>= _ = _
  rw [filterBy_nil]
  show Except.ok (firstOf _ ([] : List Datum)) = _
  unfold firstOf
  split
  · rw [List.take_nil]
  · rw [List.take_nil]

/-- What stops reading all events stops reading some of them. -/
theorem read_of_readAll_error {locking : Locking} {cause : Failure}
    (h : s.readAll locking files cwd = .error cause) :
    s.read locking files cwd level type limit = .error cause := by
  unfold read
  rw [h]
  rfl

section Reading

variable {pieces : List (List UInt8)}

/-- A missing file is read as one without events. -/
theorem readAll_of_none (locking : Locking) (h : files.get? (Location.ofPath cwd s.path) = none) :
    s.readAll locking files cwd = .ok [] := by
  unfold readAll
  rw [h]

theorem readAll_of_file (locking : Locking)
    (h : files.get? (Location.ofPath cwd s.path) = some (.file pieces)) :
    s.readAll locking files cwd =
      if 0 ≤ s.tailBytes then parse (tail s.tailBytes.toNat pieces.reverse.flatten)
      else readBehind locking pieces.reverse.flatten.length s.tailBytes := by
  unfold readAll
  rw [h]

theorem readAll_locked_of_directory
    (h : files.get? (Location.ofPath cwd s.path) = some .directory) :
    s.readAll .locked files cwd =
      if s.tailBytes < 0 then readBehind .locked 0 s.tailBytes else .error (.isDirectory none) := by
  unfold readAll
  rw [h]

theorem readAll_unlocked_of_directory
    (h : files.get? (Location.ofPath cwd s.path) = some .directory) :
    s.readAll .unlocked files cwd = .error (.isDirectory (some s.path.text)) := by
  unfold readAll
  rw [h]

end Reading

/-- Under a lock, a tail of negative size of what is there is a failure of the system or of a
machine number. -/
theorem read_locked_of_neg (level type : Option String) (limit : Int) (h : s.tailBytes < 0)
    {n : Node} (hnode : files.get? (Location.ofPath cwd s.path) = some n) :
    ∃ cause, s.read .locked files cwd level type limit = .error cause ∧
      (cause.kind = .system ∨ cause.kind = .overflow) := by
  obtain ⟨length, hall⟩ : ∃ length, s.readAll .locked files cwd =
      readBehind .locked length s.tailBytes := by
    cases n with
    | directory => exact ⟨0, (readAll_locked_of_directory hnode).trans (if_pos h)⟩
    | file pieces => exact ⟨_, (readAll_of_file .locked hnode).trans (if_neg (Int.not_le.2 h))⟩
  refine ⟨_, read_of_readAll_error hall, ?_⟩
  split
  · right
    rfl
  · left
    rfl

/-- Without a lock, a failure to read has none of these kinds. -/
theorem read_unlocked_of_neg (h : s.tailBytes < 0) {cause : Failure}
    (hread : s.read .unlocked files cwd level type limit = .error cause) :
    cause.kind = .value ∨ cause.kind = .isDirectory := by
  cases hnode : files.get? (Location.ofPath cwd s.path) with
  | none =>
      rw [read_of_readAll_nil (readAll_of_none .unlocked hnode)] at hread
      cases hread
  | some n =>
      cases n with
      | directory =>
          rw [read_of_readAll_error (readAll_unlocked_of_directory hnode)] at hread
          cases hread
          right
          rfl
      | file pieces =>
          have hall := (readAll_of_file .unlocked hnode).trans (if_neg (Int.not_le.2 h))
          unfold readBehind at hall
          dsimp only at hall
          split at hall
          · rw [read_of_readAll_error hall] at hread
            cases hread
            left
            rfl
          · rw [read_of_readAll_nil hall] at hread
            cases hread

/-- What is there is not read in the same way with a tail of negative size. -/
theorem answerOf_read_ne (h : s.tailBytes < 0) {n : Node}
    (hnode : files.get? (Location.ofPath cwd s.path) = some n) :
    answerOf some (s.read .locked files cwd level type limit) ≠
      answerOf some (s.read .unlocked files cwd level type limit) := by
  intro heq
  obtain ⟨cause, hlocked, hkind⟩ := read_locked_of_neg level type limit h hnode
  rw [hlocked] at heq
  cases hunlocked : s.read .unlocked files cwd level type limit with
  | ok found =>
      rw [hunlocked] at heq
      cases heq
  | error cause' =>
      rw [hunlocked] at heq
      have hkind' := read_unlocked_of_neg h hunlocked
      rw [← (Except.error.inj heq : cause.kind = cause'.kind)] at hkind'
      -- no kind is in both lists
      rcases hkind with hkind | hkind
      · rw [hkind] at hkind'
        exact absurd hkind' (by decide)
      · rw [hkind] at hkind'
        exact absurd hkind' (by decide)

/-- A tail of a size that is not negative is read in the same way. At a directory both ways fail in
the same way. -/
theorem answerOf_read_eq (h : 0 ≤ s.tailBytes) :
    answerOf some (s.read .locked files cwd level type limit) =
      answerOf some (s.read .unlocked files cwd level type limit) := by
  cases hnode : files.get? (Location.ofPath cwd s.path) with
  | none =>
      rw [read_of_readAll_nil (readAll_of_none .locked hnode),
        read_of_readAll_nil (readAll_of_none .unlocked hnode)]
  | some n =>
      cases n with
      | directory =>
          have hlocked := (readAll_locked_of_directory hnode).trans (if_neg (Int.not_lt.2 h))
          rw [read_of_readAll_error hlocked,
            read_of_readAll_error (readAll_unlocked_of_directory hnode)]
          rfl
      | file pieces =>
          have hlocked := (readAll_of_file .locked hnode).trans (if_pos h)
          have hunlocked := (readAll_of_file .unlocked hnode).trans (if_pos h)
          rw [read, read, hlocked, hunlocked]

/-- **A read is answered in the same way with and without locks** exactly if nothing is there or its
tail has no negative size. -/
theorem answer_read_eq_iff :
    s.answer .locked files cwd (.read level type limit) =
        s.answer .unlocked files cwd (.read level type limit) ↔
      0 ≤ s.tailBytes ∨ files.get? (Location.ofPath cwd s.path) = none := by
  constructor
  · intro h
    have hfound := congrArg Prod.fst h
    by_cases htail : 0 ≤ s.tailBytes
    · exact .inl htail
    · cases hnode : files.get? (Location.ofPath cwd s.path) with
      | none => exact .inr rfl
      | some n => exact absurd hfound (answerOf_read_ne (Int.not_le.1 htail) hnode)
  · rintro (htail | hnone)
    · exact congrArg (·, files) (answerOf_read_eq htail)
    · show (answerOf some (s.read _ _ _ _ _ _), files) = (answerOf some (s.read _ _ _ _ _ _), files)
      rw [read_of_readAll_nil (readAll_of_none .locked hnone),
        read_of_readAll_nil (readAll_of_none .unlocked hnone)]

/-- A request is answered in the same way as long as the tail has no negative size. -/
theorem answer_eq (h : 0 ≤ s.tailBytes) (r : Request) :
    s.answer .locked files cwd r = s.answer .unlocked files cwd r := by
  cases r with
  | write e => rfl
  | read level type limit => exact answer_read_eq_iff.2 (.inl h)

/-! ## Many requests -/

/-- The place of a file of events is never the root. -/
theorem location_ne_nil (s : Sink) : Location.ofPath cwd s.path ≠ [] := by
  have hlast : Location.ofPath cwd s.path =
      (s.directory.names.foldl Location.step (if s.directory.root = "" then cwd else [])).step
        fileName := List.foldl_append
  rw [hlast, Location.step, if_neg (by decide)]
  exact List.append_ne_nil_of_right_ne_nil _ (List.cons_ne_nil _ _)

/-- **Requests are answered in the same way with and without locks, and leave the same files**,
whatever the files and the requests, exactly if the tail has no negative size. -/
theorem answers_eq_iff :
    (∀ (files : Files) (requests : List Request),
      s.answers .locked files cwd requests = s.answers .unlocked files cwd requests) ↔
      0 ≤ s.tailBytes := by
  constructor
  · intro h
    -- one file that is there tells a negative size
    let location := Location.ofPath cwd s.path
    let files : Files := [(location, .ofBytes [])]
    have hnode : files.get? location = some (.ofBytes []) := by
      rw [Files.get?, if_neg (location_ne_nil s), List.lookup_cons_self]
    have hanswer := (List.cons.inj (h files [.read none none 0])).1
    rcases answer_read_eq_iff.1 hanswer with htail | hnone
    · exact htail
    · rw [hnode] at hnone
      cases hnone
  · intro h files requests
    induction requests generalizing files with
    | nil => rfl
    | cons r rest ih => rw [answers, answers, answer_eq h, ih]

end Sink

/-! ## Sizes from settings -/

namespace Settings

/-- **A settings file can ask for a tail of any size.** -/
theorem ofValue_tailBytes (cwd : Location) (file : Path) (n : Int) :
    ∃ settings, ofValue cwd file (.mapping [(.text "logging_tail_bytes", .int n)]) = .ok settings ∧
      settings.tailBytes = n :=
  ⟨{ standard with tailBytes := n }, rfl, rfl⟩

end Settings

namespace Sink

/-- The files of a log with one line. -/
def oneLineFiles : Files :=
  [(["logs"], .directory),
   (["logs", fileName], .ofBytes (Text.Utf8.encode "\x7b\"level\": \"info\"\x7d\n".toList))]

/-- With a tail of size minus one, reading a line under a lock is a failure of the system. Without
one, the file counts as empty. -/
theorem answers_negativeTail :
    ∃ settings : Settings,
      Settings.ofValue [] ⟨"", ["calceval.yaml"]⟩
        (.mapping [(.text "logging_tail_bytes", .int (-1))]) = .ok settings ∧
      answers .locked oneLineFiles [] ⟨⟨"", ["logs"]⟩, settings.tailBytes⟩ [.read none none 200] =
        [(.error .system, oneLineFiles)] ∧
      answers .unlocked oneLineFiles [] ⟨⟨"", ["logs"]⟩, settings.tailBytes⟩
          [.read none none 200] =
        [(.ok (some []), oneLineFiles)] :=
  ⟨{ Settings.standard with tailBytes := -1 }, rfl, rfl, rfl⟩

end Sink

end Calculator
