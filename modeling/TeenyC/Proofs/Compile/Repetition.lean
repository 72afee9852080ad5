import TeenyC.Proofs.Compile.Calculus

/-!
# Repetition without a bound

`repeatWhile` bounds the number of its repetitions by the tokens that remain.
Where every repetition takes weight away from the session, the bound is never
reached: `repeatWhile_eq` unfolds a repetition without mention of it, and
`repeatWhile_eq_ok_iff` says what its successful runs are.

All statements speak of the sessions of an invariant.  The rule for statements is
repeated inside itself, and at first is known to take weight away from light sessions
only.
-/

namespace TeenyC.Rule

/-- From every session of the invariant where the condition holds, a successful run of
the rule leads to a lighter one; and the condition fails at the end of the input. -/
structure Progresses (invariant : Session → Prop) (condition : Session → Bool)
    (rule : Rule Unit) : Prop where
  stops : ∀ ⦃session : Session⦄, session.current.kind = .endOfInput → condition session = false
  moves : ∀ ⦃session after : Session⦄ ⦃value : Unit⦄, invariant session →
    condition session = true → rule session = .ok value after →
    invariant after ∧ after.weight < session.weight

variable {invariant : Session → Prop} {condition : Session → Bool} {rule : Rule Unit}
  {session after : Session} {value : Unit}

/-! ## The bound does not matter -/

theorem repeatAtMost_succ (n : Nat) (session : Session) :
    repeatAtMost condition rule (n + 1) session =
      if condition session = true then
        (rule >>= fun _ => repeatAtMost condition rule n) session
      else
        .ok () session := by
  simp only [repeatAtMost, get_bind]
  split <;> rfl

theorem repeatAtMost_of_not (n : Nat) (fails : condition session = false) :
    repeatAtMost condition rule n session = .ok () session := by
  cases n with
  | zero => rfl
  | succ n => simp [repeatAtMost_succ, fails]

theorem repeatWhile_of_not (fails : condition session = false) :
    repeatWhile condition rule session = .ok () session :=
  repeatAtMost_of_not _ fails

theorem Progresses.fails_of_weight_eq_zero (progresses : Progresses invariant condition rule)
    (weightless : session.weight = 0) : condition session = false :=
  progresses.stops (Cursor.current_of_weight_eq_zero weightless)

/-- Any two bounds that reach the weight give the same result. -/
theorem repeatAtMost_eq_of_weight_le (progresses : Progresses invariant condition rule) {n m : Nat}
    (holdsHere : invariant session)
    (first : session.weight ≤ n) (second : session.weight ≤ m) :
    repeatAtMost condition rule n session = repeatAtMost condition rule m session := by
  induction n generalizing m session with
  | zero =>
      have fails := progresses.fails_of_weight_eq_zero (Nat.le_zero.mp first)
      rw [repeatAtMost_of_not _ fails, repeatAtMost_of_not _ fails]
  | succ n inductionHypothesis =>
      cases m with
      | zero =>
          have fails := progresses.fails_of_weight_eq_zero (Nat.le_zero.mp second)
          rw [repeatAtMost_of_not _ fails, repeatAtMost_of_not _ fails]
      | succ m =>
          rw [repeatAtMost_succ, repeatAtMost_succ]
          split
          · next holds =>
              apply bind_congr
              intro value middle run
              obtain ⟨holdsThere, lighter⟩ := progresses.moves holdsHere holds run
              exact inductionHypothesis holdsThere (by omega) (by omega)
          · rfl

/-- A repetition runs the rule and goes on, as long as the condition holds. -/
theorem repeatWhile_eq (progresses : Progresses invariant condition rule)
    (holdsHere : invariant session) :
    repeatWhile condition rule session =
      if condition session = true then
        (rule >>= fun _ => repeatWhile condition rule) session
      else
        .ok () session := by
  have enough := session.weight_le_remaining
  simp only [repeatWhile, get_bind]
  split
  · next holds =>
      cases fuel : session.remaining with
      | zero =>
          have weightless : session.weight = 0 := by omega
          have fails := progresses.fails_of_weight_eq_zero weightless
          simp [fails] at holds
      | succ n =>
          rw [repeatAtMost_succ, if_pos holds]
          apply bind_congr
          intro value middle run
          obtain ⟨holdsThere, lighter⟩ := progresses.moves holdsHere holds run
          exact repeatAtMost_eq_of_weight_le progresses holdsThere (by omega)
            middle.weight_le_remaining
  · next fails => exact repeatAtMost_of_not _ (by simpa using fails)

/-! ## Successful repetitions -/

/-- Repeating the rule as long as the condition holds leads from one session to the
other. -/
inductive Repeats (condition : Session → Bool) (rule : Rule Unit) : Session → Session → Prop
  | stop {session : Session} (fails : condition session = false) :
      Repeats condition rule session session
  | again {session middle after : Session} (holds : condition session = true)
      (first : rule session = .ok () middle) (others : Repeats condition rule middle after) :
      Repeats condition rule session after

/-- Exact successful runs of a repetition. -/
theorem repeatWhile_eq_ok_iff (progresses : Progresses invariant condition rule)
    (holdsHere : invariant session) :
    repeatWhile condition rule session = .ok value after ↔
      Repeats condition rule session after := by
  constructor
  · intro run
    induction weightEq : session.weight using Nat.strong_induction_on generalizing session with
    | _ weight inductionHypothesis =>
        rw [repeatWhile_eq progresses holdsHere] at run
        split at run
        · next holds =>
            rcases bind_eq_ok_iff.mp run with ⟨_, middle, first, others⟩
            obtain ⟨holdsThere, lighter⟩ := progresses.moves holdsHere holds first
            exact .again holds first
              (inductionHypothesis middle.weight (by omega) holdsThere others rfl)
        · next fails =>
            cases run
            exact .stop (by simpa using fails)
  · intro repeats
    induction repeats with
    | stop fails =>
        rw [repeatWhile_eq progresses holdsHere, fails]
        rfl
    | again holds first _ inductionHypothesis =>
        obtain ⟨holdsThere, lighter⟩ := progresses.moves holdsHere holds first
        rw [repeatWhile_eq progresses holdsHere, if_pos holds, bind_eq_ok_iff]
        exact ⟨_, _, first, inductionHypothesis holdsThere⟩

/-! ## Repetitions that end -/

/-- Repeating the rule as long as the condition holds, with no bound on the repetitions, comes to
an end with this result: the condition fails, or the rule does. -/
inductive Ends (condition : Session → Bool) (rule : Rule Unit) :
    Session → EStateM.Result Error Session Unit → Prop
  | stops {session : Session} (fails : condition session = false) :
      Ends condition rule session (.ok () session)
  | breaks {session after : Session} {error : Error} (holds : condition session = true)
      (fails : rule session = .error error after) : Ends condition rule session (.error error after)
  | goesOn {session middle : Session} {result : EStateM.Result Error Session Unit}
      (holds : condition session = true) (first : rule session = .ok () middle)
      (others : Ends condition rule middle result) : Ends condition rule session result

/-- A repetition that makes progress ends, with the result of the bounded one. -/
theorem Progresses.ends (progresses : Progresses invariant condition rule)
    (holdsHere : invariant session) :
    Ends condition rule session (repeatWhile condition rule session) := by
  induction weightEq : session.weight using Nat.strong_induction_on generalizing session with
  | _ weight inductionHypothesis =>
      rw [repeatWhile_eq progresses holdsHere]
      split
      · next holds =>
          rw [bind_apply]
          cases run : rule session with
          | ok value middle =>
              obtain ⟨holdsThere, lighter⟩ := progresses.moves holdsHere holds run
              exact .goesOn holds run
                (inductionHypothesis middle.weight (by omega) holdsThere rfl)
          | error error after => exact .breaks holds run
      · next fails => exact .stops (by simpa using fails)

end TeenyC.Rule
