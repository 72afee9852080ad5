import TeenyC.Proofs.Compile.Ahead

/-!
# Two runs in lockstep

Two sessions that differ in nothing but their place in the tokens are run by the same
rules.  A lockstep says which tokens may be ahead of the one while others are ahead of the
other: as long as the sessions are aligned in this way, both runs take the same decisions,
and they give the same value or the same error.

Blank lines are read in one place only, at the start of a line.  So a lockstep is two
relations: one for places inside a line, where the current tokens are equal, and one for
places in front of blank lines that are yet to be skipped.

The second run may go on where the first one is at the end of the input.  Then nothing is
said about it any more, and the errors that are left for the first run are those that only
the end of the input brings about.
-/

namespace TeenyC

/-! ## Errors at the end of the input -/

/-- The kind of the token that a syntactic fault is found at.  It is the end of the input only
at the end of the tokens: a name or a string may be spelled like it, and has its own kind. -/
def SyntaxFault.found : SyntaxFault → Kind
  | notAStatement token | notAnOperand token | notAComparison token => token.kind
  | wrongKind _ found => found

/-- The error can be met in tokens that end like this: a lexical error is the fault that they
end with, and the end of the input and all that is checked there are met only where no
fault is. -/
def Error.Fits (ending : Option LexicalError) : Error → Prop
  | .lexical error => ending = some error
  | .syntactic fault => fault.found = .endOfInput → ending = none
  | .semantic (.unknownLabel _) => ending = none
  | .semantic _ => True

/-- More text may mend the error: a block is not closed, or a label is not declared. -/
def Error.Tentative (error : Error) : Prop :=
  error = .syntactic (.wrongKind .endKeyword .endOfInput) ∨
    ∃ name, error = .semantic (.unknownLabel name)

/-! ## Locksteps -/

/-- Which tokens may be ahead of two runs. -/
structure Lockstep where
  /-- How the tokens of the first run end. -/
  ending : Option LexicalError
  /-- How the tokens of the second run end. -/
  otherEnding : Option LexicalError
  /-- The second run may go on at the end of the first. -/
  goesOn : Prop
  /-- Between tokens with blank lines in front of them that are yet to be skipped. -/
  opening : List Token → List Token → Prop
  /-- Between tokens at all other places. -/
  inLine : List Token → List Token → Prop
  skip : ∀ {tokens others : List Token}, opening tokens others →
    inLine (tokens.dropWhile (·.is .newline)) (others.dropWhile (·.is .newline)) ∨
      (goesOn ∧ tokens.dropWhile (·.is .newline) = [])
  head : ∀ {tokens others : List Token}, inLine tokens others → tokens.head? = others.head?
  inside : ∀ {token : Token} {tokens others : List Token},
    inLine (token :: tokens) (token :: others) → token.kind ≠ .newline → inLine tokens others
  line : ∀ {token : Token} {tokens others : List Token},
    inLine (token :: tokens) (token :: others) → token.kind = .newline → opening tokens others
  faults : (ending = none ∧ otherEnding = none) ∨
    (¬ goesOn ∧ ending = otherEnding ∧
      (∀ {tokens others : List Token}, opening tokens others → tokens = others) ∧
      ∀ {tokens others : List Token}, inLine tokens others → tokens = others)

namespace Lockstep

open Session (Sees Reaches)

variable {lockstep : Lockstep} {α β : Type} {mayEnd : Prop} {n m : Nat}
  {session other : Session} {relation : List Token → List Token → Prop}

/-- The sessions differ in their places only, and the tokens ahead of them, at most so many,
are in the relation. -/
structure Aligned (lockstep : Lockstep) (relation : List Token → List Token → Prop)
    (n m : Nat) (session other : Session) : Prop where
  sees : ∃ tokens others, session.Sees tokens lockstep.ending ∧
    other.Sees others lockstep.otherEnding ∧ relation tokens others ∧
    tokens.length ≤ n ∧ others.length ≤ m
  elsewhere : other = session.moveTo other.cursor

/-- The sessions are aligned inside a line. -/
abbrev InLine (lockstep : Lockstep) : Nat → Nat → Session → Session → Prop :=
  lockstep.Aligned lockstep.inLine

theorem Aligned.mono {n' m' : Nat} (aligned : lockstep.Aligned relation n m session other)
    (first : n ≤ n') (second : m ≤ m') : lockstep.Aligned relation n' m' session other := by
  obtain ⟨tokens, others, sees, otherSees, related, short, otherShort⟩ := aligned.sees
  exact ⟨⟨tokens, others, sees, otherSees, related, short.trans first, otherShort.trans second⟩,
    aligned.elsewhere⟩

/-- The bounds can be taken so low that the remaining tokens reach them. -/
theorem Aligned.tighten (aligned : lockstep.Aligned relation n m session other) :
    ∃ n' m', n' ≤ n ∧ m' ≤ m ∧ n' ≤ session.remaining ∧ m' ≤ other.remaining ∧
      lockstep.Aligned relation n' m' session other := by
  obtain ⟨tokens, others, sees, otherSees, related, short, otherShort⟩ := aligned.sees
  refine ⟨tokens.length, others.length, short, otherShort, ?_, ?_,
    ⟨tokens, others, sees, otherSees, related, Nat.le_refl _, Nat.le_refl _⟩, aligned.elsewhere⟩
  · exact (sees.ahead.length_le_weight sees.valid).trans session.weight_le_remaining
  · exact (otherSees.ahead.length_le_weight otherSees.valid).trans other.weight_le_remaining

/-- What does not depend on the place is the same in both sessions. -/
theorem Aligned.read {γ : Type} (aligned : lockstep.Aligned relation n m session other)
    (part : Session → γ) (apart : ∀ session place, part (Session.moveTo session place) =
      part session) : part other = part session := by
  rw [aligned.elsewhere, apart]

/-- A change that has nothing to do with the place keeps the lockstep. -/
theorem Aligned.update (aligned : lockstep.Aligned relation n m session other)
    (change : Session → Session)
    (apart : ∀ session place, change (Session.moveTo session place) =
      (change session).moveTo place)
    (stays : ∀ session, (change session).cursor = session.cursor) :
    lockstep.Aligned relation n m (change session) (change other) := by
  obtain ⟨tokens, others, sees, otherSees, related⟩ := aligned.sees
  refine ⟨⟨tokens, others, ⟨?_, ?_⟩, ⟨?_, ?_⟩, related⟩, ?_⟩
  · rw [Session.Valid, stays]
    exact sees.valid
  · rw [stays]
    exact sees.ahead
  · rw [Session.Valid, stays]
    exact otherSees.valid
  · rw [stays]
    exact otherSees.ahead
  · rw [stays, ← apart, ← aligned.elsewhere]

theorem Aligned.write (aligned : lockstep.Aligned relation n m session other) (text : String) :
    lockstep.Aligned relation n m (session.write text) (other.write text) :=
  aligned.update (·.write text) (fun _ _ => rfl) fun _ => rfl

theorem Aligned.current_eq (aligned : lockstep.InLine n m session other) :
    other.current = session.current := by
  obtain ⟨tokens, others, sees, otherSees, related, _⟩ := aligned.sees
  have here := sees.ahead.current_eq sees.valid
  have there := otherSees.ahead.current_eq otherSees.valid
  rw [lockstep.head related] at here
  exact there.trans here.symm

/-- The tokens ahead are equal up to the current one. -/
theorem Aligned.exists_cons (aligned : lockstep.InLine n m session other)
    (inside : session.current.kind ≠ .endOfInput) :
    ∃ tokens others, session.Sees (session.current :: tokens) lockstep.ending ∧
      other.Sees (session.current :: others) lockstep.otherEnding ∧
      lockstep.inLine (session.current :: tokens) (session.current :: others) ∧
      tokens.length ≤ n - 1 ∧ others.length ≤ m - 1 ∧ 0 < n ∧ 0 < m := by
  have same := aligned.current_eq
  obtain ⟨tokens, others, sees, otherSees, related, short, otherShort⟩ := aligned.sees
  have otherInside : other.cursor.current.kind ≠ .endOfInput := by
    rw [Session.current_cursor, same]
    exact inside
  obtain ⟨token, tokens, rfl⟩ :=
    List.exists_cons_of_ne_nil (sees.ahead.ne_nil_iff.mpr inside)
  obtain ⟨otherToken, others, rfl⟩ :=
    List.exists_cons_of_ne_nil (otherSees.ahead.ne_nil_iff.mpr otherInside)
  obtain rfl : session.current = token := sees.ahead.current_eq sees.valid
  obtain rfl : session.current = otherToken := Option.some.inj (lockstep.head related)
  rw [List.length_cons] at short otherShort
  exact ⟨tokens, others, sees, otherSees, related, by omega, by omega, by omega, by omega⟩

theorem Aligned.bounds_pos (aligned : lockstep.InLine n m session other)
    (inside : session.current.kind ≠ .endOfInput) : 0 < n ∧ 0 < m := by
  obtain ⟨_, _, _, _, _, _, _, positive, otherPositive⟩ := aligned.exists_cons inside
  exact ⟨positive, otherPositive⟩

theorem Aligned.lookahead_eq (aligned : lockstep.InLine n m session other)
    (onLine : session.current.kind ≠ .endOfInput ∧ session.current.kind ≠ .newline) :
    other.lookahead = session.lookahead := by
  obtain ⟨tokens, others, sees, otherSees, related, _⟩ := aligned.exists_cons onLine.1
  have here := sees.ahead.lookahead_eq sees.valid (List.cons_ne_nil _ _)
  have there := otherSees.ahead.lookahead_eq otherSees.valid (List.cons_ne_nil _ _)
  rw [List.tail_cons, lockstep.head (lockstep.inside related onLine.2)] at here
  exact there.trans here.symm

/-- At the end of the input there is no fault. -/
theorem Aligned.ending_eq_none (aligned : lockstep.Aligned relation n m session other)
    (atEnd : session.current.kind = .endOfInput) : lockstep.ending = none := by
  obtain ⟨tokens, others, sees, _⟩ := aligned.sees
  cases isEnding : lockstep.ending with
  | none => rfl
  | some error =>
      have two := sees.ahead.two_le_length isEnding
      have inside := sees.ahead.ne_nil_iff.mp (List.ne_nil_of_length_pos (by omega))
      exact absurd atEnd inside

/-! ## Results -/

/-- The first result is right about the second: the same value and a session that goes with
the one there, or the same error.  The first run may have come to the end of the input
where the second one goes on, if that is allowed for. -/
def Agrees (lockstep : Lockstep) (mayEnd : Prop) (post : Session → Session → Prop)
    (first second : EStateM.Result Error Session α) : Prop :=
  match first with
  | .ok value session =>
    (∃ other, second = .ok value other ∧ post session other) ∨
      (mayEnd ∧ lockstep.ending = none ∧ session.current.kind = .endOfInput)
  | .error error _ =>
    error.Fits lockstep.ending ∧
      ((∃ other, second = .error error other) ∨ (lockstep.goesOn ∧ error.Tentative))

variable {first second : EStateM.Result Error Session α} {middle post : Session → Session → Prop}

theorem agrees_ok {value : α} (holds : post session other) :
    lockstep.Agrees mayEnd post (.ok value session) (.ok value other) :=
  .inl ⟨other, rfl, holds⟩

theorem agrees_error {error : Error} (fits : error.Fits lockstep.ending) :
    lockstep.Agrees mayEnd post (.error error session : EStateM.Result Error Session α)
      (.error error other) :=
  ⟨fits, .inl ⟨other, rfl⟩⟩

theorem Agrees.mono {mayEnd' : Prop} {post' : Session → Session → Prop}
    (agrees : lockstep.Agrees mayEnd post first second) (ends : mayEnd → mayEnd')
    (holds : ∀ {session other}, post session other → post' session other) :
    lockstep.Agrees mayEnd' post' first second := by
  cases first with
  | ok value session =>
      rcases agrees with ⟨other, isOk, before⟩ | ⟨mayEnd, noFault, atEnd⟩
      · exact .inl ⟨other, isOk, holds before⟩
      · exact .inr ⟨ends mayEnd, noFault, atEnd⟩
  | error error session => exact agrees

/-- Sequences agree if their parts do.  Where the first run may have ended, what follows must
agree with whatever the second run does. -/
theorem Agrees.bind {rule otherRule : Rule α} {next otherNext : α → Rule β} {mayEnd' : Prop}
    (start : lockstep.Agrees mayEnd middle (rule session) (otherRule other))
    (continues : ∀ {value session other}, middle session other →
      lockstep.Agrees mayEnd' post (next value session) (otherNext value other))
    (ends : mayEnd → lockstep.ending = none → ∀ {value : α} {session : Session},
      session.current.kind = .endOfInput → ∀ result,
        lockstep.Agrees mayEnd' post (next value session) result) :
    lockstep.Agrees mayEnd' post ((rule >>= next) session) ((otherRule >>= otherNext) other) := by
  rw [Rule.bind_apply, Rule.bind_apply]
  cases run : rule session with
  | ok value after =>
      rw [run] at start
      rcases start with ⟨otherAfter, otherRun, holds⟩ | ⟨mayEnd, noFault, atEnd⟩
      · rw [otherRun]
        exact continues holds
      · exact ends mayEnd noFault atEnd _
  | error error after =>
      rw [run] at start
      rcases start with ⟨fits, ⟨otherAfter, otherRun⟩ | excused⟩
      · rw [otherRun]
        exact agrees_error fits
      · exact ⟨fits, .inr excused⟩

/-- Sequences agree if their parts do and the first run has not ended in between. -/
theorem Agrees.andThen {rule otherRule : Rule α} {next otherNext : α → Rule β}
    (start : lockstep.Agrees False middle (rule session) (otherRule other))
    (continues : ∀ {value session other}, middle session other →
      lockstep.Agrees mayEnd post (next value session) (otherNext value other)) :
    lockstep.Agrees mayEnd post ((rule >>= next) session) ((otherRule >>= otherNext) other) :=
  start.bind continues False.elim

/-- Two sessions that go on agree if they come to tokens that are in the relation. -/
theorem agrees_of_reaches {tokens others : List Token}
    {first second : EStateM.Result Error Session Unit}
    (elsewhere : other = session.moveTo other.cursor)
    (reaches : session.Reaches tokens lockstep.ending first)
    (otherReaches : other.Reaches others lockstep.otherEnding second)
    (related : relation tokens others) (short : tokens.length ≤ n) (otherShort : others.length ≤ m)
    (faults : (lockstep.ending = none ∧ lockstep.otherEnding = none) ∨
      (lockstep.ending = lockstep.otherEnding ∧ tokens = others)) :
    lockstep.Agrees mayEnd (lockstep.Aligned relation n m) first second := by
  rcases reaches with ⟨place, rfl, sees⟩ | ⟨error, after, rfl, isFault, few⟩
  · rcases otherReaches with ⟨otherPlace, rfl, otherSees⟩ | ⟨error, after, rfl, isFault, few⟩
    · apply agrees_ok
      refine ⟨⟨tokens, others, sees, otherSees, related, short, otherShort⟩, ?_⟩
      rw [elsewhere]
      rfl
    · rcases faults with ⟨_, noFault⟩ | ⟨same, rfl⟩
      · rw [noFault] at isFault
        cases isFault
      · have two := sees.ahead.two_le_length (same.trans isFault)
        omega
  · rcases faults with ⟨noFault, _⟩ | ⟨same, rfl⟩
    · rw [noFault] at isFault
      cases isFault
    · rcases otherReaches with
        ⟨otherPlace, rfl, otherSees⟩ | ⟨otherError, after, rfl, otherFault, _⟩
      · have two := otherSees.ahead.two_le_length (same.symm.trans isFault)
        omega
      · obtain rfl : error = otherError := by
          rw [← same, isFault] at otherFault
          exact Option.some.inj otherFault
        exact agrees_error isFault

/-! ## Tokens -/

/-- Going past a token leads to tokens that are aligned as those behind it are. -/
theorem shift_agrees_to (aligned : lockstep.InLine n m session other)
    (inside : session.current.kind ≠ .endOfInput)
    (leads : ∀ {tokens others : List Token},
      lockstep.inLine (session.current :: tokens) (session.current :: others) →
        relation tokens others) :
    lockstep.Agrees mayEnd (lockstep.Aligned relation (n - 1) (m - 1)) (Rule.shift session)
      (Rule.shift other) := by
  obtain ⟨tokens, others, sees, otherSees, related, short, otherShort, _⟩ :=
    aligned.exists_cons inside
  have otherInside : other.current.kind ≠ .endOfInput := by rwa [aligned.current_eq]
  apply agrees_of_reaches aligned.elsewhere (Rule.shift_reaches sees inside)
    (Rule.shift_reaches otherSees otherInside) (leads related) short otherShort
  rcases lockstep.faults with noFaults | ⟨_, same, _, equal⟩
  · exact .inl noFaults
  · exact .inr ⟨same, congrArg List.tail (equal related)⟩

theorem shift_agrees (aligned : lockstep.InLine n m session other)
    (onLine : session.current.kind ≠ .endOfInput ∧ session.current.kind ≠ .newline) :
    lockstep.Agrees mayEnd (lockstep.InLine (n - 1) (m - 1)) (Rule.shift session)
      (Rule.shift other) :=
  shift_agrees_to aligned onLine.1 fun related => lockstep.inside related onLine.2

theorem skipNewlines_agrees (aligned : lockstep.Aligned lockstep.opening n m session other) :
    lockstep.Agrees lockstep.goesOn (lockstep.InLine n m) (Rule.skipNewlines session)
      (Rule.skipNewlines other) := by
  obtain ⟨tokens, others, sees, otherSees, related, short, otherShort⟩ := aligned.sees
  have reaches := Rule.skipNewlines_reaches sees
  rcases lockstep.skip related with skipped | ⟨goesOn, nothing⟩
  · apply agrees_of_reaches aligned.elsewhere reaches (Rule.skipNewlines_reaches otherSees)
      skipped ((List.length_dropWhile_le _ _).trans short)
      ((List.length_dropWhile_le _ _).trans otherShort)
    rcases lockstep.faults with noFaults | ⟨_, same, equal, _⟩
    · exact .inl noFaults
    · exact .inr ⟨same, congrArg _ (equal related)⟩
  · rcases lockstep.faults with ⟨noFault, _⟩ | ⟨stops, _⟩
    · rw [nothing] at reaches
      rcases reaches with ⟨place, skips, seesEnd⟩ | ⟨error, _, _, isFault, _⟩
      · have atEnd : (session.moveTo place).current = .endOfInput :=
          seesEnd.ahead.current_eq seesEnd.valid
        rw [skips]
        exact .inr ⟨goesOn, noFault, congrArg Token.kind atEnd⟩
      · rw [noFault] at isFault
        cases isFault
    · exact absurd goesOn stops

/-- A syntactic fault at the current token. -/
theorem syntactic_agrees {fault : SyntaxFault} (aligned : lockstep.InLine n m session other)
    (here : fault.found = session.current.kind) :
    lockstep.Agrees mayEnd post
      (.error (.syntactic fault) session : EStateM.Result Error Session α)
      (.error (.syntactic fault) other) := by
  apply agrees_error
  intro atEnd
  exact aligned.ending_eq_none (here.symm.trans atEnd)

/-! ## Repetition -/

section Repetition

variable {condition : Session → Bool} {rule otherRule : Rule Unit}

theorem repeatAtMost_agrees
    (stops : ∀ {session : Session}, session.current.kind = .endOfInput → condition session = false)
    (same : ∀ {session other : Session}, other.current = session.current →
      condition other = condition session)
    (step : ∀ {n' m' : Nat} {session other : Session}, n' ≤ n → m' ≤ m →
      lockstep.InLine n' m' session other → condition session = true →
      lockstep.Agrees mayEnd (lockstep.InLine (n' - 1) (m' - 1)) (rule session)
        (otherRule other))
    {bound otherBound : Nat} (enough : n ≤ bound) (otherEnough : m ≤ otherBound)
    (aligned : lockstep.InLine n m session other) :
    lockstep.Agrees mayEnd
      (fun after otherAfter => lockstep.InLine n m after otherAfter ∧ condition after = false)
      (Rule.repeatAtMost condition rule bound session)
      (Rule.repeatAtMost condition otherRule otherBound other) := by
  -- Each run has a bound of its own.  Both reach the tokens ahead, so neither cuts it off.
  induction bound generalizing n m otherBound session other with
  | zero =>
      have atEnd : session.current.kind = .endOfInput := by
        apply Decidable.byContradiction
        intro inside
        have positive := (aligned.bounds_pos inside).1
        omega
      have fails := stops atEnd
      have otherFails := (same aligned.current_eq).trans fails
      rw [Rule.repeatAtMost_of_not _ fails, Rule.repeatAtMost_of_not _ otherFails]
      exact agrees_ok ⟨aligned, fails⟩
  | succ bound inductionHypothesis =>
      by_cases holds : condition session = true
      · have inside : session.current.kind ≠ .endOfInput := by
          intro atEnd
          rw [stops atEnd] at holds
          contradiction
        obtain ⟨positive, otherPositive⟩ := aligned.bounds_pos inside
        obtain ⟨otherBound, rfl⟩ :=
          Nat.exists_eq_add_one_of_ne_zero (Nat.ne_zero_of_lt (otherPositive.trans_le otherEnough))
        have otherHolds := (same aligned.current_eq).trans holds
        rw [Rule.repeatAtMost_succ, if_pos holds, Rule.repeatAtMost_succ, if_pos otherHolds]
        apply (step (Nat.le_refl n) (Nat.le_refl m) aligned holds).bind
        · intro _ after otherAfter alignedAfter
          apply (inductionHypothesis _ _ _ alignedAfter).mono id
          · rintro _ _ ⟨there, fails⟩
            exact ⟨there.mono (Nat.sub_le n 1) (Nat.sub_le m 1), fails⟩
          · intro n' m' _ _ fewer otherFewer
            exact step (fewer.trans (Nat.sub_le n 1)) (otherFewer.trans (Nat.sub_le m 1))
          · omega
          · omega
        · intro mayEnd noFault _ after atEnd result
          rw [Rule.repeatAtMost_of_not _ (stops atEnd)]
          exact .inr ⟨mayEnd, noFault, atEnd⟩
      · have fails : condition session = false := Bool.eq_false_iff.mpr holds
        have otherFails := (same aligned.current_eq).trans fails
        rw [Rule.repeatAtMost_of_not _ fails, Rule.repeatAtMost_of_not _ otherFails]
        exact agrees_ok ⟨aligned, fails⟩

/-- Repetitions agree if every repetition agrees and goes past a token. -/
theorem repeatWhile_agrees
    (stops : ∀ {session : Session}, session.current.kind = .endOfInput → condition session = false)
    (same : ∀ {session other : Session}, other.current = session.current →
      condition other = condition session)
    (step : ∀ {n' m' : Nat} {session other : Session}, n' ≤ n → m' ≤ m →
      lockstep.InLine n' m' session other → condition session = true →
      lockstep.Agrees mayEnd (lockstep.InLine (n' - 1) (m' - 1)) (rule session)
        (otherRule other))
    (aligned : lockstep.InLine n m session other) :
    lockstep.Agrees mayEnd
      (fun after otherAfter => lockstep.InLine n m after otherAfter ∧ condition after = false)
      (Rule.repeatWhile condition rule session) (Rule.repeatWhile condition otherRule other) := by
  obtain ⟨n', m', fewer, otherFewer, enough, otherEnough, tight⟩ := aligned.tighten
  simp only [Rule.repeatWhile, Rule.get_bind]
  apply (repeatAtMost_agrees stops same _ enough otherEnough tight).mono id
  · rintro _ _ ⟨there, fails⟩
    exact ⟨there.mono fewer otherFewer, fails⟩
  · intro _ _ _ _ less otherLess
    exact step (less.trans fewer) (otherLess.trans otherFewer)

end Repetition

end Lockstep

end TeenyC
