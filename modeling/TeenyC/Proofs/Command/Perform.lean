import TeenyC.Command.Run

/-!
# Tasks on any host with a state

What a task of the command gives and what it does to the state of its host, one equation for each
way of putting tasks together.  A traversal that fails has succeeded up to one task and fails
there.
-/

namespace TeenyC

namespace Command

variable {σ α β ε : Type} {state after middle : σ} {result : β} {failure : Failure}

/-- Run a task on a host with a state. -/
def perform (state : σ) (task : Task (StateM σ) α) : Except Failure α × σ :=
  task.run.run state

theorem perform_pure (state : σ) (value : α) :
    perform state (pure value : Task (StateM σ) α) = (.ok value, state) :=
  rfl

theorem perform_bind (state : σ) (task : Task (StateM σ) α) (next : α → Task (StateM σ) β) :
    perform state (task >>= next) =
      match perform state task with
      | (.ok value, middle) => perform middle (next value)
      | (.error failure, middle) => (.error failure, middle) := by
  change ExceptT.bindCont next (perform state task).1 (perform state task).2 = _
  rcases perform state task with ⟨failure | value, middle⟩ <;> rfl

theorem perform_bind_of_ok {task : Task (StateM σ) α} {value : α}
    (first : perform state task = (.ok value, middle)) (next : α → Task (StateM σ) β) :
    perform state (task >>= next) = perform middle (next value) := by
  rw [perform_bind, first]

theorem perform_bind_of_error {task : Task (StateM σ) α}
    (first : perform state task = (.error failure, middle)) (next : α → Task (StateM σ) β) :
    perform state (task >>= next) = (.error failure, middle) := by
  rw [perform_bind, first]

theorem perform_bind_eq_ok_iff {task : Task (StateM σ) α} {next : α → Task (StateM σ) β} :
    perform state (task >>= next) = (.ok result, after) ↔
      ∃ value middle, perform state task = (.ok value, middle) ∧
        perform middle (next value) = (.ok result, after) := by
  rw [perform_bind]
  rcases perform state task with ⟨failure | value, middle⟩
  · simp
  · constructor
    · intro run
      exact ⟨value, middle, rfl, run⟩
    · rintro ⟨_, _, same, run⟩
      cases same
      exact run

theorem perform_bind_eq_error_iff {task : Task (StateM σ) α} {next : α → Task (StateM σ) β} :
    perform state (task >>= next) = (.error failure, after) ↔
      perform state task = (.error failure, after) ∨
        ∃ value middle, perform state task = (.ok value, middle) ∧
          perform middle (next value) = (.error failure, after) := by
  rw [perform_bind]
  rcases perform state task with ⟨first | value, middle⟩
  · simp
  · constructor
    · intro run
      exact .inr ⟨value, middle, rfl, run⟩
    · rintro (⟨⟨⟩⟩ | ⟨_, _, same, run⟩)
      cases same
      exact run

theorem perform_attempt (state : σ) (failure : ε → Failure) (action : StateM σ (Except ε α)) :
    perform state (attempt failure action) =
      ((action.run state).1.mapError failure, (action.run state).2) :=
  rfl

theorem perform_attempt_pure (state : σ) (failure : ε → Failure) (result : Except ε α) :
    perform state (attempt (m := StateM σ) failure (pure result)) =
      (result.mapError failure, state) :=
  rfl

/-- A traversal that fails has succeeded up to one of the tasks and fails there. -/
theorem exists_of_perform_forM_error {values : List α} {task : α → Task (StateM σ) PUnit}
    (fails : perform state (values.forM task) = (.error failure, after)) :
    ∃ earlier value later middle, values = earlier ++ value :: later ∧
      perform state (earlier.forM task) = (.ok (), middle) ∧
      perform middle (task value) = (.error failure, after) := by
  induction values generalizing state with
  | nil => cases fails
  | cons value rest inductionHypothesis =>
      rcases perform_bind_eq_error_iff.mp fails with here | ⟨_, middle, first, others⟩
      · exact ⟨[], value, rest, state, rfl, rfl, here⟩
      · obtain ⟨earlier, stopped, later, last, rfl, succeeded, stops⟩ := inductionHypothesis others
        refine ⟨value :: earlier, stopped, later, last, rfl, ?_, stops⟩
        exact (perform_bind_of_ok first _).trans succeeded

end Command

end TeenyC
