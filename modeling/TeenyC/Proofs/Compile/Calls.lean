import TeenyC.Proofs.Compile.Parts

/-!
# The calls of the rule for statements

The rule for statements is called by the program and, for the statements in a block, by itself.
No rule recovers from an error, so a call shows in the outcome: if it failed, the rule that makes
it would fail with the same error in the same session, and with any other error likewise.  This
is what it means here that a rule calls another one at a session.
-/

namespace TeenyC

namespace Rule

variable {α : Type} {outer : Rule Unit → Rule α} {inner other : Rule Unit}
  {condition : Session → Bool} {session inside : Session}

/-- The outer rule calls the inner one at a session: a failure of the inner rule there, and only
there, is a failure of the outer rule. -/
def CallsAt (outer : Rule Unit → Rule α) (inner : Rule Unit) (session inside : Session) : Prop :=
  ∀ failing : Rule Unit, (∀ there, there ≠ inside → failing there = inner there) →
    ∀ error after, failing inside = .error error after →
      outer failing session = .error error after

/-- If the outer rule is the same for all inner rules that agree where a condition holds, then
it calls the inner rule only where the condition holds. -/
theorem CallsAt.holds {holds : Session → Prop} (calls : CallsAt outer inner session inside)
    (congruent : ∀ other : Rule Unit, (∀ there, holds there → other there = inner there) →
      outer other session = outer inner session) : holds inside := by
  classical
  apply Decidable.byContradiction
  intro outside
  -- A failing call would make no difference, so the outer rule would fail with every error.
  have fails : ∀ error, outer inner session = .error error inside := by
    intro error
    let failing : Rule Unit := fun there =>
      if there = inside then .error error inside else inner there
    have agrees : ∀ there, holds there → failing there = inner there := by
      intro there isHeld
      apply if_neg
      rintro rfl
      exact outside isHeld
    rw [← congruent failing agrees]
    apply calls failing
    · intro there different
      exact if_neg different
    · exact if_pos rfl
  have absurdity := (fails (.semantic .nestedFunction)).symm.trans
    (fails (.semantic (.unknownLabel mainFunction)))
  cases absurdity

/-! ## Inner rules that make no difference -/

section Agreement

variable {holds : Session → Prop}

/-- The two rules do the same wherever the condition holds, and where they succeed it holds
again. -/
structure AgreeWhere (holds : Session → Prop) (inner other : Rule Unit) : Prop where
  same : ∀ ⦃there : Session⦄, holds there → other there = inner there
  keeps : ∀ ⦃there after : Session⦄ ⦃value : Unit⦄, holds there → inner there = .ok value after →
    holds after

theorem AgreeWhere.repeatWhile (agree : AgreeWhere holds inner other)
    (condition : Session → Bool) (holdsHere : holds session) :
    repeatWhile condition other session = repeatWhile condition inner session := by
  rw [Rule.repeatWhile, Rule.repeatWhile, get_bind, get_bind]
  generalize session.remaining = n
  induction n generalizing session with
  | zero => rfl
  | succ n inductionHypothesis =>
      rw [repeatAtMost_succ, repeatAtMost_succ]
      split
      · rw [bind_apply, bind_apply, agree.same holdsHere]
        cases run : inner session with
        | ok value after => exact inductionHypothesis (agree.keeps holdsHere run)
        | error error after => rfl
      · rfl

theorem AgreeWhere.blockBody (agree : AgreeWhere holds inner other)
    (begins : ∀ first, lineEnd session = .ok () first → holds first) :
    blockBody other session = blockBody inner session := by
  apply bind_congr
  intro _ first run
  rw [bind_apply, bind_apply, agree.repeatWhile _ (begins first run)]

/-- A statement at the one session has a block whose statements begin at the other one. -/
inductive BeginsBlock : Session → Session → Prop
  | function {session entered inside : Session} (isKind : session.current.kind = .fnKeyword)
      (enters : functionHead session = .ok () entered)
      (begins : lineEnd entered = .ok () inside) : BeginsBlock session inside
  | conditional {session entered inside : Session} {word : String}
      (isKind : session.current.kind = .ifKeyword ∨ session.current.kind = .whileKeyword)
      (enters : conditionalHead word session = .ok () entered)
      (begins : lineEnd entered = .ok () inside) : BeginsBlock session inside

/-- A statement is the same for inner rules that agree from where its block begins. -/
theorem AgreeWhere.statementOver (agree : AgreeWhere holds inner other)
    (inBlock : ∀ inside, BeginsBlock session inside → holds inside) :
    statementOver other session = statementOver inner session := by
  have conditional : ∀ word, session.current.kind = .ifKeyword ∨
      session.current.kind = .whileKeyword →
        conditionalBlock word other session = conditionalBlock word inner session := by
    intro word isKind
    rw [conditionalBlock_eq, conditionalBlock_eq]
    apply bind_congr
    intro _ entered enters
    rw [bind_apply, bind_apply,
      agree.blockBody fun inside begins => inBlock inside (.conditional isKind enters begins)]
  have same : unendedStatement other session = unendedStatement inner session := by
    rw [unendedStatement, unendedStatement, get_bind, get_bind]
    cases here : session.current.kind with
    | fnKeyword =>
        show functionDeclaration other session = functionDeclaration inner session
        rw [functionDeclaration_eq, functionDeclaration_eq]
        apply bind_congr
        intro _ entered enters
        rw [bind_apply, bind_apply,
          agree.blockBody fun inside begins => inBlock inside (.function here enters begins)]
    | ifKeyword => exact conditional "if" (.inl here)
    | whileKeyword => exact conditional "while" (.inr here)
    | _ => rfl
  rw [statementOver_eq, statementOver_eq, bind_apply, bind_apply, same]

/-- A program is the same for rules for statements that agree from its first statement on. -/
theorem AgreeWhere.programOver (agree : AgreeWhere holds inner other)
    (begins : ∀ first, skipNewlines session.openMain = .ok () first → holds first) :
    programOver other session = programOver inner session := by
  apply bind_congr
  intro _ first run
  rw [bind_apply, bind_apply, agree.repeatWhile _ (begins first run)]

/-! ## Where the rule for statements is called -/

/-- A statement calls the inner rule where the condition holds only, if it holds where the block
of the statement begins and is kept by the inner rule. -/
theorem CallsAt.inStatement (calls : CallsAt .statementOver inner session inside)
    (keeps : ∀ ⦃there after : Session⦄ ⦃value : Unit⦄, holds there →
      inner there = .ok value after → holds after)
    (inBlock : ∀ first, BeginsBlock session first → holds first) : holds inside :=
  calls.holds fun _ same => AgreeWhere.statementOver ⟨same, keeps⟩ inBlock

/-- Likewise for a program and its first statement. -/
theorem CallsAt.inProgram (calls : CallsAt .programOver inner session inside)
    (keeps : ∀ ⦃there after : Session⦄ ⦃value : Unit⦄, holds there →
      inner there = .ok value after → holds after)
    (begins : ∀ first, skipNewlines session.openMain = .ok () first → holds first) :
    holds inside :=
  calls.holds fun _ same => AgreeWhere.programOver ⟨same, keeps⟩ begins

end Agreement

/-! ## The first statement of a block or a program -/

/-- A loop fails with its rule. -/
theorem repeatWhile_of_error {error : Error} {after : Session}
    (continues : condition session = true)
    (fails : inner session = .error error after) :
    repeatWhile condition inner session = .error error after := by
  rw [repeatWhile, get_bind, Session.remaining, repeatAtMost_succ, if_pos continues, bind_apply,
    fails]

/-- A program calls the rule for statements at its first statement. -/
theorem callsAt_first_statement
    (skips : skipNewlines session.openMain = .ok () inside)
    (continues : inside.isAt .endOfInput = false) :
    CallsAt programOver inner session inside := by
  intro failing _ error after fails
  rw [programOver, programBody, bind_apply, skips]
  dsimp only
  rw [bind_apply, repeatWhile_of_error (by rw [continues]; rfl) fails]

/-- The declaration of a function calls the rule for statements at the first statement of the
body. -/
theorem callsAt_first_of_function {entered : Session}
    (isKind : session.current.kind = .fnKeyword)
    (enters : functionHead session = .ok () entered)
    (skips : lineEnd entered = .ok () inside)
    (continues : (!inside.isAt .endKeyword && !inside.isAt .endOfInput) = true) :
    CallsAt statementOver inner session inside := by
  intro failing _ error after fails
  have body : blockBody failing entered = .error error after := by
    rw [blockBody, bind_apply, skips]
    dsimp only
    rw [bind_apply, repeatWhile_of_error continues fails]
  have declaration : functionDeclaration failing session = .error error after := by
    rw [functionDeclaration_eq, bind_apply, enters]
    dsimp only
    rw [bind_apply, body]
  rw [statementOver, get_bind]
  simp only [isKind]
  rw [bind_apply, declaration]

end Rule

/-- The calls of the rule for statements in a pass that starts at a session, each with the bound
on the depth of the blocks in it. -/
inductive StatementCall (start : Session) : Nat → Session → Prop where
  /-- A statement of the program. -/
  | ofProgram {session : Session} (call : Rule.CallsAt .programOver .statement start session) :
      StatementCall start session.remaining session
  /-- A statement in a block of another one. -/
  | ofBlock {depth : Nat} {session inside : Session}
      (around : StatementCall start (depth + 1) session)
      (call : Rule.CallsAt .statementOver (.statementWithin depth) session inside) :
      StatementCall start depth inside

end TeenyC
