import TeenyC.NameSet

/-!
# Variable tables

The variables that a program has declared so far, function by function.  A
variable belongs to the function that declares it and is unknown in every other.
-/

namespace TeenyC

/-- The declared variables of every open function, the newest function first. -/
structure Variables where
  entries : List (String × NameSet)
  deriving DecidableEq

namespace Variables

/-- The table with one function and no variables. -/
def ofFunction (function : String) : Variables :=
  ⟨[(function, .empty)]⟩

/-- The functions with an entry. -/
def functions (table : Variables) : List String :=
  table.entries.map (·.1)

/-- The variables of a function; none where it has no entry. -/
def of (table : Variables) (function : String) : NameSet :=
  ((table.entries.find? (·.1 == function)).map (·.2)).getD .empty

/-- Open a function that has no variables yet. -/
def openFunction (table : Variables) (function : String) : Variables :=
  ⟨(function, .empty) :: table.entries⟩

/-- Whether a function has declared a variable. -/
def declares (table : Variables) (function name : String) : Bool :=
  (table.of function).contains name

/-- Add a variable to the entry of a function. -/
def declare (table : Variables) (function name : String) : Variables :=
  ⟨table.entries.map fun entry =>
    if entry.1 = function then (entry.1, entry.2.insert name) else entry⟩

@[simp]
theorem functions_declare (table : Variables) (function name : String) :
    (table.declare function name).functions = table.functions := by
  simp only [functions, declare, List.map_map]
  apply List.map_congr_left
  intro entry _
  simp only [Function.comp_apply]
  split <;> rfl

/-- Declaring a variable adds it to its function, if that is open, and leaves every
other function alone. -/
theorem of_declare (table : Variables) (function name other : String) :
    (table.declare function name).of other =
      if other = function ∧ function ∈ table.functions then (table.of other).insert name
      else table.of other := by
  rcases table with ⟨entries⟩
  simp only [of, declare, functions]
  induction entries with
  | nil => simp
  | cons entry rest inductionHypothesis =>
      rcases entry with ⟨owner, names⟩
      simp only [List.map_cons, List.find?_cons]
      by_cases here : owner = other
      · subst here
        by_cases same : owner = function <;> simp [same]
      · have apart := beq_eq_false_iff_ne.mpr here
        by_cases same : owner = function
        · have different : ¬ other = function := fun equal => here (same.trans equal.symm)
          simp only [different, false_and, if_false] at inductionHypothesis
          simp only [same, different, false_and, if_true, if_false]
          rw [same] at apart
          simp only [apart, inductionHypothesis]
        · have notHead : ¬ function = owner := fun equal => same equal.symm
          simp only [same, if_false, apart, inductionHypothesis, List.mem_cons, notHead, false_or]
          congr

end Variables

end TeenyC
