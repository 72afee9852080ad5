import Mathlib.Logic.Function.Iterate
import TeenyC.Proofs.Compile.Calls
import TeenyC.Proofs.Compile.Spending

/-!
# How deep blocks are nested

The rule for statements calls itself for the statements in a block, and is closed by a bound on
the depth of the blocks.  The bound is never reached: every block has a head and a line end in
front of its statements, so the tokens that are ahead bound the depth.  It makes no difference
which rule stands below the bound, and the rule for statements calls itself indeed.
-/

namespace TeenyC.Rule

variable {session inside : Session} {depth other : Nat}

/-- From where a block begins to its first statement there are two tokens at least. -/
theorem BeginsBlock.spends (begins : BeginsBlock session inside) :
    session.Spends 2 (.ok () inside) := by
  cases begins with
  | function isKind enters skips =>
      have run : (functionHead >>= fun _ => lineEnd) session = .ok () inside :=
        bind_eq_ok_iff.mpr ⟨(), _, enters, skips⟩
      have notEnd : session.current.kind ≠ .endOfInput := by
        rw [isKind]
        decide
      have spends := (functionHead_spends notEnd).bind fun _ entered => lineEnd_spends entered
      exact spends.of_ok run
  | @conditional _ _ word isKind enters skips =>
      have run : (conditionalHead word >>= fun _ => lineEnd) session = .ok () inside :=
        bind_eq_ok_iff.mpr ⟨(), _, enters, skips⟩
      have notEnd : session.current.kind ≠ .endOfInput := by
        rcases isKind with isKind | isKind <;> (rw [isKind]; decide)
      have spends :=
        (conditionalHead_spends word notEnd).bind fun _ entered => lineEnd_spends entered
      exact spends.of_ok run

/-- The sessions in the block of a statement. -/
def InBlockOf (session there : Session) : Prop :=
  there.Valid ∧ there.weight + 2 ≤ session.weight

/-- Statements do not lead out of the block. -/
theorem InBlockOf.keeps {there after : Session} {value : Unit} (inBlock : InBlockOf session there)
    (run : statementWithin depth there = .ok value after) : InBlockOf session after := by
  obtain ⟨valid, lighter⟩ := ((statementWithin_spends depth there).of_ok run).lighter inBlock.1
  have before := inBlock.2
  exact ⟨valid, by omega⟩

/-- Any two bounds that reach the weight give the same result, whatever stands below the bound. -/
theorem iterate_statementOver_eq (bottom : Rule Unit) (valid : session.Valid)
    (first : session.weight ≤ depth) (second : session.weight ≤ other) (firstPos : 0 < depth)
    (secondPos : 0 < other) :
    (statementOver^[depth] bottom) session = statementWithin other session := by
  induction depth generalizing session other with
  | zero => contradiction
  | succ depth inductionHypothesis =>
      obtain ⟨other, rfl⟩ := Nat.exists_eq_add_one_of_ne_zero secondPos.ne'
      rw [Function.iterate_succ_apply', statementWithin]
      have agree : AgreeWhere (InBlockOf session) (statementWithin other)
          (statementOver^[depth] bottom) := by
        constructor
        · rintro there ⟨validThere, lighter⟩
          apply inductionHypothesis validThere <;> omega
        · exact fun _ _ _ inBlock run => inBlock.keeps run
      exact agree.statementOver fun inside begins => begins.spends.lighter valid

/-- The tokens that remain are enough of a bound, and so is any bound that reaches the weight. -/
theorem iterate_statementOver_eq_statement (bottom : Rule Unit) (valid : session.Valid)
    (enough : session.weight ≤ depth) (pos : 0 < depth) :
    (statementOver^[depth] bottom) session = statement session := by
  rw [statement, get_bind]
  exact iterate_statementOver_eq bottom valid enough session.weight_le_remaining pos
    (Nat.succ_pos _)

theorem statementWithin_eq_statement (valid : session.Valid) (enough : session.weight ≤ depth)
    (pos : 0 < depth) : statementWithin depth session = statement session := by
  rw [← iterate_statementOver_eq statement valid enough enough pos pos]
  exact iterate_statementOver_eq_statement statement valid enough pos

/-- The rule for statements calls itself for the statements in a block. -/
theorem statement_eq_statementOver (valid : session.Valid) :
    statement session = statementOver statement session := by
  have agree : AgreeWhere (InBlockOf session) (statementWithin (session.lexer.unread + 1))
      statement := by
    have reached : session.weight ≤ session.lexer.unread + 2 := session.weight_le_remaining
    constructor
    · rintro there ⟨validThere, lighter⟩
      exact (statementWithin_eq_statement validThere (by omega) (Nat.succ_pos _)).symm
    · exact fun _ _ _ inBlock run => inBlock.keeps run
  rw [agree.statementOver fun inside begins => begins.spends.lighter valid]
  exact statement_apply session

end TeenyC.Rule
