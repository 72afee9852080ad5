import Mathlib.Data.List.Forall2
import TeenyC.Source

/-!
# Programs in order

The programs of a directory come ordered by their paths, name by name, in whatever order they
were met.  They are then read and rendered one after the other, so that of several faults the
one that shows is that of the program whose path comes first.
-/

namespace TeenyC

/-! ## Tasks on the members of a list -/

section Traversal

variable {α β ε : Type} {task : α → Except ε β} {values : List α} {results : List β} {fault : ε}

theorem mapM_cons_of_ok {value : α} {result : β} (first : task value = .ok result)
    (rest : List α) : (value :: rest).mapM task = (rest.mapM task).map (result :: ·) := by
  rw [List.mapM_cons, first]
  change (rest.mapM task >>= fun others => pure (result :: others)) = _
  cases rest.mapM task <;> rfl

theorem mapM_cons_of_error {value : α} (first : task value = .error fault) (rest : List α) :
    (value :: rest).mapM task = .error fault := by
  rw [List.mapM_cons, first]
  rfl

/-- A task succeeds on all members of a list if it succeeds on each. -/
theorem mapM_eq_ok_iff :
    values.mapM task = .ok results ↔
      List.Forall₂ (fun value result => task value = .ok result) values results := by
  induction values generalizing results with
  | nil =>
      rw [List.forall₂_nil_left_iff, List.mapM_nil]
      exact ⟨fun same => (Except.ok.inj same).symm, fun isNil => isNil ▸ rfl⟩
  | cons value rest inductionHypothesis =>
      rw [List.forall₂_cons_left_iff]
      cases first : task value with
      | error fault => simp [mapM_cons_of_error first]
      | ok result =>
          rw [mapM_cons_of_ok first]
          constructor
          · intro mapped
            cases others : rest.mapM task with
            | error fault => rw [others] at mapped; cases mapped
            | ok further =>
                rw [others] at mapped
                cases mapped
                exact ⟨result, further, rfl, inductionHypothesis.mp others, rfl⟩
          · rintro ⟨_, further, same, others, rfl⟩
            cases same
            rw [inductionHypothesis.mpr others]
            rfl

theorem exists_result_of_mapM (mapped : values.mapM task = .ok results) {value : α}
    (isIn : value ∈ values) : ∃ result ∈ results, task value = .ok result := by
  induction mapM_eq_ok_iff.mp mapped with
  | nil => cases isIn
  | cons first others inductionHypothesis =>
      rcases List.mem_cons.mp isIn with rfl | isIn
      · exact ⟨_, List.mem_cons_self, first⟩
      · obtain ⟨result, isResult, isOk⟩ := inductionHypothesis (mapM_eq_ok_iff.mpr others) isIn
        exact ⟨result, List.mem_cons_of_mem _ isResult, isOk⟩

theorem exists_value_of_mapM (mapped : values.mapM task = .ok results) {result : β}
    (isIn : result ∈ results) : ∃ value ∈ values, task value = .ok result := by
  induction mapM_eq_ok_iff.mp mapped with
  | nil => cases isIn
  | cons first others inductionHypothesis =>
      rcases List.mem_cons.mp isIn with rfl | isIn
      · exact ⟨_, List.mem_cons_self, first⟩
      · obtain ⟨value, isValue, isOk⟩ := inductionHypothesis (mapM_eq_ok_iff.mpr others) isIn
        exact ⟨value, List.mem_cons_of_mem _ isValue, isOk⟩

/-- A task succeeds on a list exactly if it succeeds on all its members. -/
theorem exists_results_iff :
    (∃ results, values.mapM task = .ok results) ↔
      ∀ value ∈ values, ∃ result, task value = .ok result := by
  constructor
  · rintro ⟨results, mapped⟩ value isIn
    rcases exists_result_of_mapM mapped isIn with ⟨result, _, succeeds⟩
    exact ⟨result, succeeds⟩
  · intro succeeds
    induction values with
    | nil => exact ⟨[], rfl⟩
    | cons value rest inductionHypothesis =>
        rcases List.forall_mem_cons.mp succeeds with ⟨⟨result, first⟩, others⟩
        rcases inductionHypothesis others with ⟨results, mapped⟩
        exact ⟨result :: results, by rw [mapM_cons_of_ok first, mapped]; rfl⟩

/-- A split of the results is one of the values. -/
theorem exists_split_of_mapM {before after : List β} {result : β}
    (mapped : values.mapM task = .ok (before ++ result :: after)) :
    ∃ first value rest, values = first ++ value :: rest ∧ first.mapM task = .ok before ∧
      task value = .ok result ∧ rest.mapM task = .ok after := by
  have related := mapM_eq_ok_iff.mp mapped
  obtain ⟨value, rest, isOk, others, split⟩ :=
    List.forall₂_cons_right_iff.mp (List.forall₂_drop_append values before _ related)
  refine ⟨values.take before.length, value, rest, ?_,
    mapM_eq_ok_iff.mpr (List.forall₂_take_append values before _ related), isOk,
    mapM_eq_ok_iff.mpr others⟩
  rw [← split, List.take_append_drop]

/-- One more value has one more result. -/
theorem mapM_concat_of_ok {value : α} {result : β} (mapped : values.mapM task = .ok results)
    (last : task value = .ok result) : (values ++ [value]).mapM task = .ok (results ++ [result]) :=
  mapM_eq_ok_iff.mpr (List.rel_append (mapM_eq_ok_iff.mp mapped) (.cons last .nil))

/-- What a task keeps of its values is kept of a list of them, in order. -/
theorem map_eq_map_of_mapM {γ : Type} {ofValue : α → γ} {ofResult : β → γ}
    (mapped : values.mapM task = .ok results)
    (keeps : ∀ value result, task value = .ok result → ofResult result = ofValue value) :
    results.map ofResult = values.map ofValue := by
  induction mapM_eq_ok_iff.mp mapped with
  | nil => rfl
  | cons first others inductionHypothesis =>
      rw [List.map_cons, List.map_cons, keeps _ _ first,
        inductionHypothesis (mapM_eq_ok_iff.mpr others)]

/-- A task fails on a list with the fault of the first member on which it fails. -/
theorem mapM_of_first_error {before after : List α} {value : α}
    (succeeds : ∀ earlier ∈ before, ∃ result, task earlier = .ok result)
    (fails : task value = .error fault) :
    (before ++ value :: after).mapM task = .error fault := by
  induction before with
  | nil => exact mapM_cons_of_error fails after
  | cons earlier before inductionHypothesis =>
      obtain ⟨result, isOk⟩ := succeeds earlier List.mem_cons_self
      have others := inductionHypothesis fun other isIn =>
        succeeds other (List.mem_cons_of_mem earlier isIn)
      rw [List.cons_append, mapM_cons_of_ok isOk, others]
      rfl

/-- If a task fails on some member of a list, it fails on a first one. -/
theorem exists_first_error (task : α → Except ε β) {value : α} (isIn : value ∈ values)
    (fails : task value = .error fault) :
    ∃ before first after firstFault, values = before ++ first :: after ∧
      (∀ earlier ∈ before, ∃ result, task earlier = .ok result) ∧
      task first = .error firstFault := by
  induction values with
  | nil => cases isIn
  | cons head rest inductionHypothesis =>
      cases onHead : task head with
      | error other => exact ⟨[], head, rest, other, rfl, nofun, onHead⟩
      | ok result =>
          rcases List.mem_cons.mp isIn with rfl | isIn
          · rw [onHead] at fails
            cases fails
          · obtain ⟨before, first, after, firstFault, rfl, succeeds, firstFails⟩ :=
              inductionHypothesis isIn
            refine ⟨head :: before, first, after, firstFault, rfl, ?_, firstFails⟩
            intro earlier isEarlier
            rcases List.mem_cons.mp isEarlier with rfl | isEarlier
            · exact ⟨result, onHead⟩
            · exact succeeds earlier isEarlier

end Traversal

/-! ## The order of paths -/

section Order

variable {first second third : List String}

theorem namesUpTo_trans (lower : namesUpTo first second = true)
    (upper : namesUpTo second third = true) : namesUpTo first third = true := by
  induction first generalizing second third with
  | nil => rfl
  | cons name rest inductionHypothesis =>
      cases second with
      | nil => simp [namesUpTo] at lower
      | cons middle others =>
          cases third with
          | nil => simp [namesUpTo] at upper
          | cons last further =>
              simp only [namesUpTo] at lower upper ⊢
              by_cases same : name = middle
              · subst same
                rw [if_pos rfl] at lower
                split at upper
                · next sameLast =>
                    rw [if_pos sameLast]
                    exact inductionHypothesis lower upper
                · next different => rwa [if_neg different]
              · rw [if_neg same, decide_eq_true_iff] at lower
                split at upper
                · next sameLast =>
                    subst sameLast
                    rwa [if_neg same, decide_eq_true_iff]
                · rw [decide_eq_true_iff] at upper
                  have below := String.lt_trans lower upper
                  have different : name ≠ last := fun equal =>
                    String.lt_irrefl last (equal ▸ below)
                  rwa [if_neg different, decide_eq_true_iff]

theorem namesUpTo_total (first second : List String) :
    (namesUpTo first second || namesUpTo second first) = true := by
  induction first generalizing second with
  | nil => rfl
  | cons name rest inductionHypothesis =>
      cases second with
      | nil => rfl
      | cons other others =>
          simp only [namesUpTo]
          by_cases same : name = other
          · subst same
            simpa using inductionHypothesis others
          · rw [if_neg same, if_neg (Ne.symm same), Bool.or_eq_true, decide_eq_true_iff,
              decide_eq_true_iff]
            apply Decidable.byContradiction
            intro unordered
            rw [not_or] at unordered
            exact same (String.le_antisymm (String.not_lt.mp unordered.2)
              (String.not_lt.mp unordered.1))

/-- Two paths come one after the other, or mean the same. -/
def Path.UpTo (first second : Path) : Prop :=
  namesUpTo first.names second.names = true

end Order

/-! ## Ordered programs -/

theorem mergeSort_pair {α : Type} (upTo : α → α → Bool) (first second : α) :
    [first, second].mergeSort upTo =
      if upTo first second then [first, second] else [second, first] := by
  simp [List.mergeSort, List.MergeSort.Internal.splitInTwo, List.merge]

section Sources

variable {files : List FoundFile} {sources : List SourceFile} {tree : FileTree} {root : Path}

theorem sourcesOf_eq_ok_iff :
    sourcesOf files = .ok sources ↔
      ∃ read, files.mapM FoundFile.source = .ok read ∧
        (read.mergeSort fun first second => namesUpTo first.path.names second.path.names) =
          sources := by
  rw [sourcesOf]
  cases files.mapM FoundFile.source with
  | error error =>
      constructor
      · intro read
        cases read
      · rintro ⟨_, read, _⟩
        cases read
  | ok read =>
      constructor
      · intro same
        exact ⟨read, rfl, Except.ok.inj same⟩
      · rintro ⟨_, same, sorted⟩
        cases same
        exact congrArg Except.ok sorted

theorem sources_eq_ok_iff :
    tree.sources root = .ok sources ↔
      ∃ files, tree.filesBelow root isSourcePath = .ok files ∧ sourcesOf files = .ok sources := by
  rw [FileTree.sources]
  cases tree.filesBelow root isSourcePath with
  | error error =>
      constructor
      · intro found
        cases found
      · rintro ⟨_, found, _⟩
        cases found
  | ok files =>
      constructor
      · intro found
        exact ⟨files, rfl, found⟩
      · rintro ⟨_, same, found⟩
        cases same
        exact found

/-- The programs of a directory are ordered by their paths. -/
theorem pairwise_upTo_of_sources (found : tree.sources root = .ok sources) :
    sources.Pairwise fun first second => first.path.UpTo second.path := by
  obtain ⟨files, _, read⟩ := sources_eq_ok_iff.mp found
  obtain ⟨_, _, rfl⟩ := sourcesOf_eq_ok_iff.mp read
  apply List.pairwise_mergeSort
  · intro first second third
    exact namesUpTo_trans
  · intro first second
    exact namesUpTo_total first.path.names second.path.names

end Sources

end TeenyC
