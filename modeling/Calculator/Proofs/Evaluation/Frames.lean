import Calculator.Evaluation
import Calculator.Proofs.Grammar.Recognition
import Calculator.Vocabulary

/-!
# Calls of the rules

Seven rules call each other while a source is evaluated: those for the whole source, for sums,
products, factors, powers, operands and names. Here they are run on a stock of frames. A call takes
one frame for as long as it is active, and a call that finds none left ends the run with a fault,
which may be any. So a run that is the evaluation itself, whatever that fault is, has never had more
calls active at once than it had frames.

Six frames for each level of nesting and seven more are enough for all sources, and one less is not,
where there is a function to call (`evaluate_frames`). The number of operators, of groups side by
side and of finished powers plays no part in it.
-/

set_option autoImplicit false

namespace Calculator

variable {V : Type}

/-! ## Rules on a stock of frames -/

section Frames

variable (d : Domain V) (ending : Ending)

/-- A group whose inside is left to a rule with one level less. -/
def groupBy (inner : Nat → Rule V) : Nat → Rule V
  | 0 => tooDeep
  | n + 1 => groupWith ending (inner n)

/-- A power whose exponent is left to rules with one level less. -/
def powerBy (operand : Nat → Rule V) (powers : Nat → V → Rule V) : Nat → V → Rule V
  | 0 => fun _ => tooDeep
  | n + 1 => powerWith d ending (operand n) (powers n)

/-- Whether the next lexeme is a name. -/
def startsName : List Lexeme → Bool
  | l :: _ => l.kind = .identifier
  | [] => false

/-- The outcome of a call for which no frame is left. -/
def overrunning (overrun : Fault) : Rule V := fun _ => .error overrun

variable (overrun : Fault)

mutual

/-- A sum. The frames that are left for the call come first, the levels second. -/
def expressionWithin : Nat → Nat → Rule V
  | 0, _ => overrunning overrun
  | k + 1, n => chain d ending additive? (termWithin k n)

/-- A product. -/
def termWithin : Nat → Nat → Rule V
  | 0, _ => overrunning overrun
  | k + 1, n => chain d ending multiplicative? (factorWithin k n)

/-- A factor. Its operand has returned when the powers are called. -/
def factorWithin : Nat → Nat → Rule V
  | 0, _ => overrunning overrun
  | k + 1, n => factor d ending (operandWithin k n) (powersWithin k n)

/-- The powers of a base. They are called even where no operator of a power follows. -/
def powersWithin : Nat → Nat → V → Rule V
  | 0, _ => fun _ => overrunning overrun
  | k + 1, n => powersWith (powerBy d ending (operandWithin k) (powersWithin k) n)

/-- An operand: a name is left to the rule for names, the inside of a group to the one for sums. -/
def operandWithin : Nat → Nat → Rule V
  | 0, _ => overrunning overrun
  | k + 1, n => fun lexemes =>
    if startsName lexemes then nameWithin k n lexemes
    else operandWith d ending (groupBy ending (expressionWithin k) n) lexemes

/-- A name. The group that a function is applied to is an operand again. -/
def nameWithin : Nat → Nat → Rule V
  | 0, _ => overrunning overrun
  | k + 1, n => operandWith d ending (operandWithin k n)

end

/-- The value of a whole sequence of lexemes with at most `limit` levels of nesting and at most
`frames` calls active at once. -/
def evaluateLexemesWithin (frames limit : Nat) (lexemes : List Lexeme) : Except Fault V :=
  match frames with
  | 0 => .error overrun
  | k + 1 => do
    let lexemes ← advance ending lexemes
    let (v, ahead) ← expressionWithin d ending overrun k limit lexemes
    match ahead with
    | [] => pure v
    | _ => throw (.misplaced ahead ahead .operatorOrEnd)

/-- The value of the expression in a transcript, with at most `frames` calls active at once. -/
def Transcript.evaluateWithin (frames : Nat) (limit : DepthLimit) (t : Transcript) :
    Except Trouble V :=
  (evaluateLexemesWithin d t.endingKind overrun frames limit.levels t.lexemes).mapError
    (t.report limit.levels)

/-! ## Enough frames -/

variable {d ending overrun} {n k : Nat}

theorem expressionWithin_eq (hoperand : operandWithin d ending overrun k n = operand d ending n)
    (hpowers : powersWithin d ending overrun k n = powers d ending n) :
    expressionWithin d ending overrun (k + 3) n =
      expression d ending (operand d ending n) (powers d ending n) := by
  simp only [expressionWithin, termWithin, factorWithin, hoperand, hpowers, expression, term]

theorem operandWithin_of_startsName {s : List Lexeme} (h : startsName s = true) :
    operandWithin d ending overrun (k + 1) n s = nameWithin d ending overrun k n s := by
  rw [operandWithin]
  exact if_pos h

theorem operandWithin_of_not_startsName {s : List Lexeme} (h : ¬ startsName s = true) :
    operandWithin d ending overrun (k + 1) n s =
      operandWith d ending (groupBy ending (expressionWithin d ending overrun k) n) s := by
  rw [operandWithin]
  exact if_neg h

/-- An operand that opens a group takes a single frame for itself. -/
theorem operandWithin_of_opensGroup {s : List Lexeme} (h : opensGroup s = true) :
    operandWithin d ending overrun (k + 1) n s =
      groupBy ending (expressionWithin d ending overrun k) n s := by
  cases s with
  | nil => cases h
  | cons l rest =>
      have hl : l.kind = .leftParen := of_decide_eq_true h
      have hname : ¬ startsName (l :: rest) = true := by
        rw [startsName, hl]
        decide
      rw [operandWithin_of_not_startsName hname, operandWith_leftParen d ending hl]

/-- A name depends on the rule for groups only where a group is opened behind it. -/
theorem operandWith_congr_of_startsName {group group' : Rule V} {s : List Lexeme}
    (h : startsName s = true)
    (hgroup : ∀ ahead, opensGroup ahead = true → group ahead = group' ahead) :
    operandWith d ending group s = operandWith d ending group' s := by
  cases s with
  | nil => cases h
  | cons l rest =>
      have hl : l.kind = .identifier := of_decide_eq_true h
      rw [operandWith_identifier d ending hl, operandWith_identifier d ending hl]
      refine congrArg _ (funext fun ahead => ?_)
      split
      · rename_i hahead
        rw [callAt, callAt, hgroup ahead hahead]
      · rfl

/-- An operand takes three frames beside those of its group: for itself, for a name, and for the
operand that the name is applied to. -/
theorem operandWithin_eq
    (hgroup : ∀ j, k ≤ j →
      groupBy ending (expressionWithin d ending overrun j) n = groupRule d ending n) :
    operandWithin d ending overrun (k + 3) n = operand d ending n := by
  funext s
  rw [operand_eq]
  by_cases hname : startsName s = true
  · rw [operandWithin_of_startsName hname, nameWithin]
    refine operandWith_congr_of_startsName hname fun ahead hahead => ?_
    rw [operandWithin_of_opensGroup hahead, hgroup k (Nat.le_refl k)]
  · rw [operandWithin_of_not_startsName hname, hgroup (k + 2) (Nat.le_add_right k 2)]

variable (d ending overrun) in
/-- With enough frames, operands and powers with `n` levels left are what they are without a stock
of frames. -/
structure Ample (n : Nat) : Prop where
  forOperand : ∀ k, 6 * n + 3 ≤ k → operandWithin d ending overrun k n = operand d ending n
  forPowers : ∀ k, 6 * n + 1 ≤ k → powersWithin d ending overrun k n = powers d ending n

theorem Ample.forExpression (h : Ample d ending overrun n) (hk : 6 * n + 6 ≤ k) :
    expressionWithin d ending overrun k n =
      expression d ending (operand d ending n) (powers d ending n) := by
  obtain ⟨k, rfl⟩ : ∃ j, k = j + 3 := ⟨k - 3, by omega⟩
  exact expressionWithin_eq (h.forOperand k (by omega)) (h.forPowers k (by omega))

/-- A level takes six frames: the three of its operand, and one each for a sum, a product and a
factor inside. -/
theorem ample_of_lower (h : ∀ m, n = m + 1 → Ample d ending overrun m) :
    Ample d ending overrun n where
  forOperand k hk := by
    obtain ⟨k, rfl⟩ : ∃ j, k = j + 3 := ⟨k - 3, by omega⟩
    apply operandWithin_eq
    intro j hj
    cases n with
    | zero => rfl -- the group is refused before a rule is called for what is inside
    | succ m => rw [groupBy, groupRule, (h m rfl).forExpression (by omega)]
  forPowers k hk := by
    obtain ⟨k, rfl⟩ : ∃ j, k = j + 1 := ⟨k - 1, by omega⟩
    rw [powersWithin, powers_eq]
    cases n with
    | zero => rfl
    | succ m =>
        -- the operand of an exponent has returned when the powers behind it are called
        rw [powerBy, powerRule, (h m rfl).forOperand k (by omega), (h m rfl).forPowers k (by omega)]

theorem ample (n : Nat) : Ample d ending overrun n := by
  induction n with
  | zero => exact ample_of_lower fun m hm => nomatch hm
  | succ n ih =>
      apply ample_of_lower
      intro m hm
      exact Nat.succ.inj hm ▸ ih

/-- **Six frames for each level and seven more are enough** for all lexemes. -/
theorem evaluateLexemesWithin_eq (limit : Nat) (lexemes : List Lexeme) :
    evaluateLexemesWithin d ending overrun (6 * limit + 7) limit lexemes =
      evaluateLexemes d ending limit lexemes := by
  rw [evaluateLexemesWithin, (ample limit).forExpression (Nat.le_refl _)]
  rfl

/-! ## Too few frames -/

/-- The lexemes that open so many calls of a function, each inside the one before. -/
def openCalls (name : String) : Nat → List Lexeme
  | 0 => []
  | n + 1 => ⟨.identifier, name⟩ :: ⟨.leftParen, "("⟩ :: openCalls name n

/-- A sum whose first operand overruns has passed that operand, a factor and a product. -/
theorem expressionWithin_overruns {s : List Lexeme} (hs : startsName s = true)
    (h : operandWithin d ending overrun k n s = .error overrun) :
    expressionWithin d ending overrun (k + 3) n s = .error overrun := by
  have hsign : signAt ending s = .ok (false, s) := by
    cases s with
    | nil => rfl
    | cons l rest =>
        have hl : l.kind = .identifier := of_decide_eq_true hs
        rw [signAt, hl]
        rfl
  have hfactor : factorWithin d ending overrun (k + 1) n s = .error overrun := by
    rw [factorWithin, factor, hsign]
    show (operandWithin d ending overrun k n s >>= _) = _
    rw [h]
    rfl
  rw [expressionWithin, termWithin, chain, chain, hfactor]
  rfl

/-- A group whose inside overruns takes one frame for itself. -/
theorem operandWithin_group_overruns {s : List Lexeme} (hs : s ≠ [])
    (h : expressionWithin d ending overrun k n s = .error overrun) :
    operandWithin d ending overrun (k + 1) (n + 1) (⟨.leftParen, "("⟩ :: s) = .error overrun := by
  rw [operandWithin_of_opensGroup rfl, groupBy, groupWith, List.drop_succ_cons, List.drop_zero,
    advance_of_present fun _ => hs]
  show groupBody ending (expressionWithin d ending overrun k n) s = _
  rw [groupBody, h]
  rfl

/-- A call whose group overruns takes one frame for itself and one for its name. -/
theorem operandWithin_call_overruns {name : String} {f : V → Except Mishap V}
    (hf : d.function? name = some f) {s : List Lexeme}
    (h : operandWithin d ending overrun k n (⟨.leftParen, "("⟩ :: s) = .error overrun) :
    operandWithin d ending overrun (k + 2) n (⟨.identifier, name⟩ :: ⟨.leftParen, "("⟩ :: s) =
      .error overrun := by
  rw [operandWithin_of_startsName rfl, nameWithin, operandWith_identifier d ending rfl,
    advance_of_present fun _ => List.cons_ne_nil _ s]
  show callAt d (operandWithin d ending overrun k n) _ (⟨.leftParen, "("⟩ :: s) name = _
  rw [callAt, hf]
  show (operandWithin d ending overrun k n (⟨.leftParen, "("⟩ :: s) >>= _) = _
  rw [h]
  rfl

/-- One call more than there are levels overruns an operand that has one frame less than is
enough. -/
theorem operandWithin_openCalls {name : String} {f : V → Except Mishap V}
    (hf : d.function? name = some f) (n : Nat) :
    operandWithin d ending overrun (6 * n + 2) n (openCalls name (n + 1)) = .error overrun := by
  induction n with
  | zero =>
      -- the two frames are those of the operand and of the name, and the group has none
      exact operandWithin_call_overruns hf (by rw [operandWithin]; rfl)
  | succ n ih =>
      apply operandWithin_call_overruns hf
      apply operandWithin_group_overruns (k := 6 * n + 5) (List.cons_ne_nil _ _)
      exact expressionWithin_overruns rfl ih

/-- **One frame less is not enough**, where there is a function to call. -/
theorem evaluateLexemesWithin_openCalls {name : String} {f : V → Except Mishap V}
    (hf : d.function? name = some f) (limit : Nat) :
    evaluateLexemesWithin d ending overrun (6 * limit + 6) limit (openCalls name (limit + 1)) =
      .error overrun := by
  have hpresent : Present ending (openCalls name (limit + 1)) := fun _ => List.cons_ne_nil _ _
  rw [evaluateLexemesWithin, advance_of_present hpresent]
  show (expressionWithin d ending overrun (6 * limit + 5) limit _ >>= _) = _
  rw [expressionWithin_overruns rfl (operandWithin_openCalls hf limit)]
  rfl

end Frames

/-- **The calls of the rules are bounded by the nesting limit.** For every domain, all lexemes and
every limit, no more than six calls for each level and seven are active at once: the evaluation on
so many frames is the evaluation, whatever it would come to if it overran. So it is for every
source. One frame less is not enough where a function is called once more than there are levels. -/
theorem evaluate_frames (d : Domain V) :
    (∀ ending overrun limit lexemes,
      evaluateLexemesWithin d ending overrun (6 * limit + 7) limit lexemes =
        evaluateLexemes d ending limit lexemes) ∧
    (∀ overrun (limit : DepthLimit) (s : Supply),
      (Transcript.ofSupply s).evaluateWithin d overrun (6 * limit.levels + 7) limit =
        evaluateSupply d limit s) ∧
    ∀ name f, d.function? name = some f → ∀ ending overrun limit,
      evaluateLexemesWithin d ending overrun (6 * limit + 6) limit (openCalls name (limit + 1)) =
        .error overrun := by
  refine ⟨?_, ?_, ?_⟩
  · intro ending overrun limit lexemes
    exact evaluateLexemesWithin_eq limit lexemes
  · intro overrun limit s
    rw [Transcript.evaluateWithin, evaluateLexemesWithin_eq]
    rfl
  · intro name f hf ending overrun limit
    exact evaluateLexemesWithin_openCalls hf limit

/-- With a single level, a call within a call overruns twelve frames, and thirteen show that it is
nested too deeply. -/
theorem evaluate_frames_sine :
    let d := Vocabulary.standard.domain
    (d.function? "sin").isSome = true ∧
      evaluateLexemesWithin d .complete .lexical 12 1 (openCalls "sin" 2) = .error .lexical ∧
      evaluateLexemesWithin d .complete .lexical 13 1 (openCalls "sin" 2) =
        .error (.misplaced [⟨.leftParen, "("⟩] [⟨.leftParen, "("⟩] .depth) := by
  intro d
  obtain ⟨henough, -, htooFew⟩ := evaluate_frames d
  have hsine : (d.function? "sin").isSome = true := by decide
  obtain ⟨f, hf⟩ := Option.isSome_iff_exists.1 hsine
  refine ⟨hsine, htooFew "sin" f hf .complete .lexical 1, ?_⟩
  exact (henough .complete .lexical 1 (openCalls "sin" 2)).trans rfl

end Calculator
