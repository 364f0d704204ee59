import LexicalTransducer.Proofs.Report.Grouping

/-!
# Which input a group belongs to

The reader counts its groups and gives them to the inputs in their order.  A group holds the results of one input, but
it belongs to the input that it is given to only if the inputs of the groups are the inputs that were asked for, and a
printer of another order is not found out.  Where the lines answer the inputs in order, the count is enough: two groups
can only become one, and then there are too few (`AnswersInOrder.isAttributed`).
-/

namespace LexicalTransducer.Report

open Text

/-- The input of a group. -/
def inputOf (rows : List (String × String)) : String :=
  (rows.head?.map (·.1)).getD ""

/-- The rows of some groups of lines. -/
def rowsOf (groups : List (List String)) : List (List (String × String)) :=
  groups.map (·.map fun l => (inputColumn l, resultColumn l))

variable {ls : List String} {lineGroups : List (List String)} {rows : List (String × String)}
  {groups : List (List (String × String))}

private theorem map_snd_rowsOf (lineGroups : List (List String)) :
    (rowsOf lineGroups).map (·.map (·.2)) = lineGroups.map (·.map resultColumn) := by
  rw [rowsOf, List.map_map]
  exact List.map_congr_left fun group _ => List.map_map ..

/-- A group is not empty, and its rows have one input. -/
private theorem input_of_mem_groups (h : IsGrouping ls lineGroups) (hg : rows ∈ rowsOf lineGroups) :
    rows ≠ [] ∧ ∀ row ∈ rows, row.1 = inputOf rows := by
  obtain ⟨group, hgroup, rfl⟩ := List.mem_map.1 hg
  obtain ⟨hne, input, hinput⟩ := h.input_of_mem hgroup
  obtain ⟨first, others, rfl⟩ := List.exists_cons_of_ne_nil hne
  refine ⟨List.cons_ne_nil _ _, List.forall_mem_map.2 fun l hl => ?_⟩
  exact (hinput l hl).trans (hinput first (List.mem_cons_self ..)).symm

/-- The groups hold the rows of all lines that are not blank, in their order. -/
private theorem flatten_rowsOf (h : IsGrouping ls lineGroups) (hrows : ∀ l ∈ ls, ¬ LacksResult l) :
    (ls.filter (!isBlankLine ·)).mapM readRow = .ok (rowsOf lineGroups).flatten := by
  rw [rowsOf, ← List.map_flatten, h.flatten_eq, mapM_eq_ok, List.forall₂_map_right_iff, List.forall₂_same]
  intro l hl
  obtain ⟨hl, hb⟩ := List.mem_filter.1 hl
  exact readRow_of_not_lacksResult (by simpa using hb) (hrows l hl)

/-! ### Answers in order -/

/-- A line with a result of an input. -/
def IsRowOf (input l : String) : Prop :=
  isBlankLine l = false ∧ ∃ result, readRow l = .ok (input, result)

/-- Lines that answer some inputs in their order, each with one line or more and with no blank line between these. -/
inductive AnswersInOrder : List String → List String → Prop
  | done : AnswersInOrder [] []
  | blank {inputs ls : List String} {l : String} (hb : isBlankLine l = true) (h : AnswersInOrder inputs ls) :
      AnswersInOrder inputs (l :: ls)
  | answer {inputs ls : List String} {input : String} {answer : List String} (hne : answer ≠ [])
      (hrows : ∀ l ∈ answer, IsRowOf input l) (h : AnswersInOrder inputs ls) :
      AnswersInOrder (input :: inputs) (answer ++ ls)

/-- Each group holds the rows of its input. -/
def IsAttributed (inputs : List String) (groups : List (List (String × String))) : Prop :=
  List.Forall₂ (fun input rows => ∀ row ∈ rows, row.1 = input) inputs groups

variable {input : String} {inputs answer : List String}

private theorem IsRowOf.inputColumn_eq {l : String} (h : IsRowOf input l) : inputColumn l = input := by
  obtain ⟨-, result, hrow⟩ := h
  by_cases htab : '\t' ∈ l.toList
  · rw [readRow_of_mem htab] at hrow
    cases hrow
    rfl
  · rw [readRow_of_notMem htab] at hrow
    cases hrow

/-- Groups get lost when neighbouring answers have one input, but none appears.  So where none is missing, each answer
is a group. -/
theorem AnswersInOrder.isAttributed (ha : AnswersInOrder inputs ls) (h : IsGrouping ls lineGroups) :
    lineGroups.length ≤ inputs.length ∧
      (lineGroups.length = inputs.length → IsAttributed inputs (rowsOf lineGroups)) := by
  induction ha generalizing lineGroups with
  | done =>
    cases h.unique .done
    exact ⟨Nat.le_refl _, fun _ => .nil⟩
  | blank hb _ ih => exact ih (h.of_blank hb)
  | @answer inputs ls input answer hne hrows _ ih =>
    have hanswer : ∀ l ∈ answer, isBlankLine l = false ∧ inputColumn l = input :=
      fun l hl => ⟨(hrows l hl).1, (hrows l hl).inputColumn_eq⟩
    obtain ⟨others, hothers⟩ := exists_isGrouping ls
    obtain ⟨hle, hattributed⟩ := ih hothers
    obtain ⟨_, h', hcases⟩ := hothers.exists_append hne hanswer
    cases h.unique h'
    rw [List.length_cons]
    rcases hcases with rfl | hlength
    · rw [List.length_cons]
      refine ⟨by omega, fun heq => .cons ?_ (hattributed (by omega))⟩
      exact List.forall_mem_map.2 fun l hl => (hanswer l hl).2
    · exact ⟨by omega, fun heq => by omega⟩

/-! ### The reader -/

variable {text : String} {results : List (List String)}

/-- Where the reading succeeds, each line has a result, and the results are those of the groups of lines. -/
private theorem exists_isGrouping_of_read (h : read inputs text = .ok results) :
    (∀ l ∈ Text.lines text, ¬ LacksResult l) ∧
    ∃ lineGroups, IsGrouping (Text.lines text) lineGroups ∧ lineGroups.length = inputs.length ∧
      results = lineGroups.map (·.map resultColumn) := by
  have hrows : ∀ l ∈ Text.lines text, ¬ LacksResult l := by
    by_contra hsome
    obtain ⟨l, -, hl⟩ := read_of_lacksResult inputs (by simpa using hsome)
    rw [hl] at h
    cases h
  obtain ⟨lineGroups, hg⟩ := exists_isGrouping (Text.lines text)
  exact ⟨hrows, lineGroups, hg, (read_eq_ok_iff hrows hg results).1 h⟩

private theorem isAttributed_iff (h : ∀ rows ∈ groups, rows ≠ [] ∧ ∀ row ∈ rows, row.1 = inputOf rows) :
    IsAttributed inputs groups ↔ groups.map inputOf = inputs := by
  induction groups generalizing inputs with
  | nil => rw [IsAttributed, List.forall₂_nil_right_iff, List.map_nil, eq_comm]
  | cons rows groups ih =>
    obtain ⟨⟨hne, hinput⟩, hothers⟩ := List.forall_mem_cons.1 h
    obtain ⟨row, rows, rfl⟩ := List.exists_cons_of_ne_nil hne
    rw [IsAttributed, List.forall₂_cons_right_iff, List.map_cons]
    constructor
    · rintro ⟨input, inputs, hrows, hgroups, rfl⟩
      rw [(ih hothers).1 hgroups]
      exact congrArg (· :: inputs) (hrows row (List.mem_cons_self ..))
    · rintro rfl
      exact ⟨_, _, hinput, (ih hothers).2 rfl, rfl⟩

/-- What a successful reading gives: groups of results of one input each, as many as the inputs, with all the results in
the order of their lines.  They are the groups of the inputs if the inputs of the groups are these, as they are where
the lines answer the inputs in order. -/
theorem groups_of_read (h : read inputs text = .ok results) : ∃ groups, results = groups.map (·.map (·.2)) ∧
    groups.length = inputs.length ∧
    ((Text.lines text).filter (!isBlankLine ·)).mapM readRow = .ok groups.flatten ∧
    (∀ rows ∈ groups, rows ≠ [] ∧ ∀ row ∈ rows, row.1 = inputOf rows) ∧
    (IsAttributed inputs groups ↔ groups.map inputOf = inputs) ∧
    (AnswersInOrder inputs (Text.lines text) → IsAttributed inputs groups) := by
  obtain ⟨hrows, lineGroups, hg, hlength, hresults⟩ := exists_isGrouping_of_read h
  have hcount : (rowsOf lineGroups).length = inputs.length := (List.length_map _).trans hlength
  exact ⟨rowsOf lineGroups, hresults.trans (map_snd_rowsOf lineGroups).symm, hcount, flatten_rowsOf hg hrows,
    fun _ => input_of_mem_groups hg, isAttributed_iff fun _ => input_of_mem_groups hg,
    fun ha => (ha.isAttributed hg).2 hlength⟩

/-- An answer of two lines and one of one line, with a blank line behind each. -/
theorem groups_of_read_eats :
    read ["eats", "ate"] "eats\teat+V\neats\teat+N\n\nate\teat+V+Past\n\n" =
      .ok [["eat+V", "eat+N"], ["eat+V+Past"]] ∧
      ∃ groups, [["eat+V", "eat+N"], ["eat+V+Past"]] = groups.map (·.map (·.2)) ∧
        IsAttributed ["eats", "ate"] groups := by
  have hread : read ["eats", "ate"] "eats\teat+V\neats\teat+N\n\nate\teat+V+Past\n\n" =
      .ok [["eat+V", "eat+N"], ["eat+V+Past"]] := by decide +kernel
  have hlines : Text.lines "eats\teat+V\neats\teat+N\n\nate\teat+V+Past\n\n" =
      ["eats\teat+V", "eats\teat+N"] ++ "" :: (["ate\teat+V+Past"] ++ [""]) := by decide +kernel
  obtain ⟨groups, hresults, -, -, -, -, hanswers⟩ := groups_of_read hread
  refine ⟨hread, groups, hresults, hanswers ?_⟩
  rw [hlines]
  refine .answer (List.cons_ne_nil _ _) ?_ (.blank (by decide +kernel)
    (.answer (List.cons_ne_nil _ _) ?_ (.blank (by decide +kernel) .done)))
  · intro l hl
    simp only [List.mem_cons, List.not_mem_nil, or_false] at hl
    rcases hl with rfl | rfl
    · exact ⟨by decide +kernel, "eat+V", by decide +kernel⟩
    · exact ⟨by decide +kernel, "eat+N", by decide +kernel⟩
  · intro l hl
    rw [List.mem_singleton.1 hl]
    exact ⟨by decide +kernel, "eat+V+Past", by decide +kernel⟩

/-- Two answers in the wrong order are two groups, so they are taken for each other. -/
theorem read_swapped :
    read ["a", "b"] "b\tx\n\na\ty\n\n" = .ok [["x"], ["y"]] ∧
      ∀ l ∈ Text.lines "b\tx\n\na\ty\n\n", readRow l ≠ .ok ("a", "x") := by
  decide +kernel

end LexicalTransducer.Report
