import TeenyC.Proofs.Compile.Inheritance
import TeenyC.Proofs.Token.Boundary

/-!
# Tokens on demand

A pass over a program uses its lexer for one thing only: to ask for the next token.  So
every cursor that a rule leaves behind, also one that fails, is reached by asking for tokens,
and a lexical error of the pass is a fault that is met by asking for tokens.
-/

namespace TeenyC

namespace Rule

variable {α β : Type} {start : Lexer}

/-- From a lexer on that has been asked for tokens, the rule does nothing but ask for more,
and its lexical errors are the faults that are met in this way. -/
def OnlyReads (start : Lexer) (rule : Rule α) : Prop :=
  ∀ ⦃session : Session⦄, start.ReadsTo session.lexer →
    match rule session with
    | .ok _ after => start.ReadsTo after.lexer
    | .error error after =>
      start.ReadsTo after.lexer ∧ ∀ fault, error = .lexical fault → start.Meets fault

theorem OnlyReads.bind {rule : Rule α} {next : α → Rule β} (first : OnlyReads start rule)
    (second : ∀ value, OnlyReads start (next value)) : OnlyReads start (rule >>= next) := by
  intro session reads
  have there := first reads
  rw [bind_apply]
  cases run : rule session with
  | ok value after =>
      rw [run] at there
      exact second value there
  | error error after =>
      rw [run] at there
      exact there

theorem onlyReads_pure (value : α) : OnlyReads start (pure value) :=
  fun _ reads => reads

theorem onlyReads_get : OnlyReads start get :=
  fun _ reads => reads

/-- An error that is not lexical does not come from the lexer. -/
theorem onlyReads_throw {error : Error} (notLexical : ∀ fault, error ≠ .lexical fault) :
    OnlyReads start (throw error : Rule α) :=
  fun _ reads => ⟨reads, fun fault isLexical => absurd isLexical (notLexical fault)⟩

theorem onlyReads_modify {change : Session → Session}
    (keeps : ∀ session, (change session).lexer = session.lexer) :
    OnlyReads start (modify change : Rule Unit) := by
  intro session reads
  show start.ReadsTo (change session).lexer
  rwa [keeps]

theorem onlyReads_write (text : String) : OnlyReads start (write text) :=
  onlyReads_modify fun _ => rfl

theorem onlyReads_shift : OnlyReads start shift := by
  intro session reads
  have there := reads.next
  rw [Lexer.afterNext] at there
  rw [shift]
  cases run : session.lexer.next with
  | ok token after =>
      rw [run] at there
      exact there
  | error error after =>
      rw [run] at there
      refine ⟨there, ?_⟩
      rintro fault ⟨rfl⟩
      exact ⟨session.lexer, after, reads, run⟩

theorem onlyReads_declareVariable (name : String) : OnlyReads start (declareVariable name) := by
  intro session reads
  rw [declareVariable_eq]
  dsimp only
  split
  · exact reads
  · exact reads

/-! ## All rules -/

theorem onlyReads_inherited : Inherited fun _ rule => OnlyReads start rule where
  pure := onlyReads_pure
  bind := OnlyReads.bind
  throw atOnce := onlyReads_throw fun _ isLexical => by rwa [isLexical] at atOnce
  look _ ofNext := onlyReads_get.bind ofNext
  shift := onlyReads_shift
  write := onlyReads_write
  addLabel _ := onlyReads_modify fun _ => rfl
  addTarget _ := onlyReads_modify fun _ => rfl
  declareVariable := onlyReads_declareVariable

theorem OnlyReads.functionDeclaration {inner : Rule Unit} (reads : OnlyReads start inner) :
    OnlyReads start (functionDeclaration inner) :=
  onlyReads_inherited.functionDeclaration (fun _ ofNext => onlyReads_get.bind ofNext)
    (fun _ => onlyReads_modify fun _ => rfl) (onlyReads_modify fun _ => rfl) reads

/-- A whole pass does nothing with its lexer but ask for tokens. -/
theorem onlyReads_program : OnlyReads start program := by
  have statements : OnlyReads start statement :=
    onlyReads_inherited.statement fun _ => .functionDeclaration
  have body : OnlyReads start (programBody statement) :=
    onlyReads_inherited.programBody (fun _ => onlyReads_throw nofun) statements
  rw [program_eq]
  intro session reads
  exact @body session.openMain reads

end Rule

/-! ## Whole passes -/

variable {source : String} {fault : LexicalError}

/-- A pass starts by asking for two tokens. -/
theorem Session.start_onlyReads (lexer : Lexer) (unit : CUnit) :
    match Session.start lexer unit with
    | .ok session => lexer.ReadsTo session.lexer
    | .error error => ∃ fault, error = .lexical fault ∧ lexer.Meets fault := by
  have reads := Lexer.ReadsTo.refl lexer
  rw [Session.start]
  cases first : lexer.next with
  | error fault after => exact ⟨fault, rfl, lexer, after, reads, first⟩
  | ok current after =>
      have readsOne : lexer.ReadsTo after := by simpa [Lexer.afterNext, first] using reads.next
      dsimp only
      cases second : after.next with
      | error fault last => exact ⟨fault, rfl, after, last, readsOne, second⟩
      | ok lookahead last => simpa [Lexer.afterNext, second] using readsOne.next

/-- A lexical error of a compilation is a fault that is met by asking for tokens. -/
theorem meets_of_compile (fails : compile source = .error (.lexical fault)) :
    (Lexer.ofString source).Meets fault := by
  have begins := Session.start_onlyReads (.ofString source) .empty
  rw [compile, run] at fails
  cases starts : Session.start (.ofString source) .empty with
  | error error =>
      rw [starts] at begins
      obtain ⟨found, rfl, meets⟩ := begins
      simp only [starts, Except.error.injEq, Error.lexical.injEq] at fails
      exact fails ▸ meets
  | ok session =>
      rw [starts] at begins
      have reads := Rule.onlyReads_program begins
      cases runs : Rule.program session with
      | ok summary after => simp [starts, runs] at fails
      | error error after =>
          rw [runs] at reads
          simp only [starts, runs, Except.error.injEq] at fails
          exact reads.2 fault fails

end TeenyC
