import TeenyC.Proofs.Compile.Cursor

/-!
# A calculus of rules

When a rule succeeds and what the session is then.  A session is taken as a cursor,
a C unit and tables of names; moving the cursor and writing text commute with each
other and leave the rest alone, so that the result of a rule can be written down
as the session it started with, moved and written to.
-/

namespace TeenyC

/-! ## Sessions -/

namespace Session

/-- The part of a session that holds tokens. -/
def cursor (session : Session) : Cursor :=
  ⟨session.lexer, session.current, session.lookahead⟩

/-- The session at another place in the tokens. -/
def moveTo (session : Session) (place : Cursor) : Session :=
  { session with lexer := place.lexer, current := place.current, lookahead := place.lookahead }

/-- The session with more text in the active section. -/
def write (session : Session) (text : String) : Session :=
  { session with unit := session.unit.write text }

/-- The session with another active section. -/
def select (session : Session) (part : Section) : Session :=
  { session with unit := session.unit.select part }

@[simp]
theorem cursor_moveTo (session : Session) (place : Cursor) :
    (session.moveTo place).cursor = place := rfl

@[simp]
theorem cursor_write (session : Session) (text : String) :
    (session.write text).cursor = session.cursor := rfl

@[simp]
theorem moveTo_cursor (session : Session) : session.moveTo session.cursor = session := rfl

@[simp]
theorem moveTo_moveTo (session : Session) (first second : Cursor) :
    (session.moveTo first).moveTo second = session.moveTo second := rfl

@[simp]
theorem moveTo_write (session : Session) (text : String) (place : Cursor) :
    (session.write text).moveTo place = (session.moveTo place).write text := rfl

@[simp]
theorem write_write (session : Session) (first second : String) :
    (session.write first).write second = session.write (first ++ second) := by
  simp only [write]
  congr 1
  rcases session.unit with ⟨active, header, functions, main⟩
  cases active <;> simp [CUnit.write, String.append_assoc]

@[simp]
theorem write_empty (session : Session) : session.write "" = session := by
  rcases session with ⟨_, _, _, ⟨active, _, _, _⟩, _, _, _, _, _⟩
  cases active <;> simp [write, CUnit.write]

@[simp]
theorem current_cursor (session : Session) : session.cursor.current = session.current := rfl

@[simp]
theorem current_moveTo (session : Session) (place : Cursor) :
    (session.moveTo place).current = place.current := rfl

@[simp]
theorem functions_moveTo (session : Session) (place : Cursor) :
    (session.moveTo place).functions = session.functions := rfl

@[simp]
theorem labels_moveTo (session : Session) (place : Cursor) :
    (session.moveTo place).labels = session.labels := rfl

@[simp]
theorem current_write (session : Session) (text : String) :
    (session.write text).current = session.current := rfl

/-- The tokens of a session are those of a source text. -/
def Valid (session : Session) : Prop :=
  session.cursor.Valid

theorem Valid.write {session : Session} (valid : session.Valid) (text : String) :
    (session.write text).Valid := valid

theorem Valid.moveTo {session : Session} {place : Cursor} {tokens : List Token}
    (valid : session.Valid) (passes : session.cursor.Passes tokens place) :
    (session.moveTo place).Valid :=
  passes.valid valid

/-- A bound on the tokens that come before the end of the input. -/
def weight (session : Session) : Nat :=
  session.cursor.weight

theorem weight_le_remaining (session : Session) : session.weight ≤ session.remaining :=
  session.cursor.weight_le_unread

end Session

namespace Rule

variable {α β : Type}

/-! ## Sequences -/

theorem bind_apply (rule : Rule α) (next : α → Rule β) (session : Session) :
    (rule >>= next) session =
      match rule session with
      | .ok value after => next value after
      | .error error after => .error error after := by
  change EStateM.bind rule next session = _
  rw [EStateM.bind]
  cases rule session <;> rfl

/-- A sequence succeeds exactly when its parts do, one after the other. -/
theorem bind_eq_ok_iff {rule : Rule α} {next : α → Rule β} {session after : Session} {result : β} :
    (rule >>= next) session = .ok result after ↔
      ∃ value middle, rule session = .ok value middle ∧ next value middle = .ok result after := by
  rw [bind_apply]
  cases rule session with
  | ok value middle =>
      constructor
      · intro run
        exact ⟨value, middle, rfl, run⟩
      · rintro ⟨_, _, same, run⟩
        cases same
        exact run
  | error error middle => simp

/-- Two sequences that start alike are alike if they go on alike. -/
theorem bind_congr {rule : Rule α} {first second : α → Rule β} {session : Session}
    (same : ∀ value middle, rule session = .ok value middle →
      first value middle = second value middle) :
    (rule >>= first) session = (rule >>= second) session := by
  rw [bind_apply, bind_apply]
  cases run : rule session with
  | ok value middle => exact same value middle run
  | error error middle => rfl

@[simp]
theorem get_bind (next : Session → Rule β) (session : Session) :
    (get >>= next) session = next session session := rfl

@[simp]
theorem pure_apply (value : α) (session : Session) :
    (pure value : Rule α) session = .ok value session := rfl

@[simp]
theorem throw_apply (error : Error) (session : Session) :
    (throw error : Rule α) session = .error error session := rfl

@[simp]
theorem throw_bind (error : Error) (next : α → Rule β) (session : Session) :
    ((throw error : Rule α) >>= next) session = .error error session := rfl

@[simp]
theorem set_bind (session other : Session) (next : PUnit → Rule β) :
    ((set other : Rule PUnit) >>= next) session = next ⟨⟩ other := rfl

@[simp]
theorem modify_apply (change : Session → Session) (session : Session) :
    (modify change : Rule PUnit) session = .ok ⟨⟩ (change session) := rfl

@[simp]
theorem modify_bind (change : Session → Session) (next : PUnit → Rule β) (session : Session) :
    ((modify change : Rule PUnit) >>= next) session = next ⟨⟩ (change session) := rfl

@[simp]
theorem write_bind (text : String) (next : Unit → Rule β) (session : Session) :
    (write text >>= next) session = next () (session.write text) := rfl

@[simp]
theorem writeLine_apply (text : String) (session : Session) :
    writeLine text session = .ok () (session.write (text ++ "\n")) := rfl

@[simp]
theorem writeLine_bind (text : String) (next : Unit → Rule β) (session : Session) :
    (writeLine text >>= next) session = next () (session.write (text ++ "\n")) := rfl

@[simp]
theorem select_bind (part : Section) (next : Unit → Rule β) (session : Session) :
    (select part >>= next) session = next () (session.select part) := rfl

/-- Whether the rule succeeds, in a session that passes a test. -/
def succeedsAt (rule : Rule α) (session : Session) (test : Session → Bool) : Bool :=
  match rule session with
  | .ok _ after => test after
  | .error _ _ => false

theorem exists_of_succeedsAt {rule : Rule Unit} {session : Session} {test : Session → Bool}
    (succeeds : rule.succeedsAt session test = true) :
    ∃ after, rule session = .ok () after ∧ test after = true := by
  rw [succeedsAt] at succeeds
  split at succeeds
  · next value after run => exact ⟨after, run, succeeds⟩
  · contradiction

/-! ## Tokens -/

theorem shift_eq_ok_iff {session after : Session} {value : Unit} :
    shift session = .ok value after ↔
      ∃ place, session.cursor.Passes [session.current] place ∧ after = session.moveTo place := by
  rw [shift]
  constructor
  · intro run
    split at run
    · next token lexer read =>
        cases run
        exact ⟨⟨lexer, session.lookahead, token⟩, .one read (.none _), rfl⟩
    · contradiction
  · rintro ⟨place, passes, rfl⟩
    cases passes with
    | one read rest =>
        cases rest
        simp only [Session.cursor] at read
        rw [read]
        rfl

theorem expect_eq_ok_iff {kind : Kind} {session after : Session} {value : Unit} :
    expect kind session = .ok value after ↔
      session.current.kind = kind ∧
        ∃ place, session.cursor.Passes [session.current] place ∧
          after = session.moveTo place := by
  simp only [expect, get_bind]
  split
  · next found => simp only [found, shift_eq_ok_iff, true_and]
  · next found => simp [found]

/-- A kind with one text is expected by its token. -/
theorem expect_eq_ok_iff_ofKind {kind : Kind} {session after : Session} {value : Unit}
    (valid : session.Valid) (fixed : kind.isFixed = true) :
    expect kind session = .ok value after ↔
      ∃ place, session.cursor.Passes [.ofKind kind] place ∧ after = session.moveTo place := by
  rw [expect_eq_ok_iff]
  constructor
  · rintro ⟨found, place, passes, rfl⟩
    have token := valid.current.eq_ofKind found fixed
    refine ⟨place, ?_, rfl⟩
    rw [← token]
    exact passes
  · rintro ⟨place, passes, rfl⟩
    have token : session.current = .ofKind kind := passes.current_eq
    refine ⟨by rw [token, Token.kind_ofKind], place, ?_, rfl⟩
    rw [token]
    exact passes

theorem identifier_eq_ok_iff {name : String} {session after : Session} :
    identifier session = .ok name after ↔
      ∃ place, session.cursor.Passes [.ofName name] place ∧ after = session.moveTo place := by
  simp only [identifier, get_bind, bind_eq_ok_iff, expect_eq_ok_iff, pure_apply]
  constructor
  · rintro ⟨_, _, ⟨found, place, passes, rfl⟩, same⟩
    cases same
    refine ⟨place, ?_, rfl⟩
    have token : session.current = .ofName session.current.text := by
      rw [Token.ofName, ← found]
    rw [← token]
    exact passes
  · rintro ⟨place, passes, rfl⟩
    have token : session.current = .ofName name := passes.current_eq
    refine ⟨(), session.moveTo place, ⟨by rw [token, Token.kind_ofName], place, ?_, rfl⟩, ?_⟩
    · rw [token]
      exact passes
    · rw [token, Token.text_ofName]

end Rule

end TeenyC
