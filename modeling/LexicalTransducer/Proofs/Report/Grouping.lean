import LexicalTransducer.Proofs.Lists
import LexicalTransducer.Proofs.Outcome
import LexicalTransducer.Report.Basic
import Mathlib.Data.List.Infix

/-!
# No line is lost between the groups

Lines that are not blank form groups: a group goes on while the lines have one input and none of them is blank
(`IsGrouping`).  Lines are grouped in one way (`exists_unique_isGrouping`), and this is how the reader groups them if
each of them has a result (`read_eq_of_isGrouping`), one line after the other with a group that is still open
(`IsGrouping.collect_eq`).  If one has none, the first such line is reported (`read_of_lacksResult`).
-/

namespace LexicalTransducer.Report

open Text

/-! ### Columns -/

/-- What stands in front of the first tab. -/
def inputColumn (l : String) : String :=
  String.ofList (l.toList.takeWhile (· != '\t'))

/-- What stands between the first tab and the next one, if there is one, and nothing if it holds the marker. -/
def resultColumn (l : String) : String :=
  let result := (l.toList.dropWhile (· != '\t')).tail.takeWhile (· != '\t')
  if noResult.toList <:+: result then "" else String.ofList result

/-- The line is not blank, but it has no tab. -/
def LacksResult (l : String) : Prop :=
  isBlankLine l = false ∧ '\t' ∉ l.toList

instance : DecidablePred LacksResult := fun _ => inferInstanceAs (Decidable (_ ∧ _))

variable {l : String}

theorem holdsMarker_iff {cs : List Char} : holdsMarker cs = true ↔ noResult.toList <:+: cs := by
  induction cs with
  | nil =>
    rw [holdsMarker, List.infix_nil]
    decide
  | cons c cs ih => rw [holdsMarker, Bool.or_eq_true, List.isPrefixOf_iff_prefix, ih, List.infix_cons_iff]

theorem readRow_of_mem (h : '\t' ∈ l.toList) : readRow l = .ok (inputColumn l, resultColumn l) := by
  obtain ⟨columns, hcolumns⟩ := exists_splitOn_eq_cons '\t' (l.toList.dropWhile (· != '\t')).tail
  rw [readRow, splitOn_of_mem h, hcolumns, inputColumn, resultColumn]
  refine congrArg (fun result => Except.ok (_, result)) ?_
  exact if_congr holdsMarker_iff rfl rfl

theorem readRow_of_not_lacksResult (hb : isBlankLine l = false) (h : ¬ LacksResult l) :
    readRow l = .ok (inputColumn l, resultColumn l) := by
  have htab : '\t' ∈ l.toList := by
    by_contra hnone
    exact h ⟨hb, hnone⟩
  exact readRow_of_mem htab

theorem readRow_of_notMem (h : '\t' ∉ l.toList) : readRow l = .error (.noResultColumn l) := by
  rw [readRow, List.splitOn_eq_singleton h]

/-! ### Groups of lines -/

/-- The groups of some lines.  A group ends with the lines, at a blank line, or at a line with another input. -/
inductive IsGrouping : List String → List (List String) → Prop
  | done : IsGrouping [] []
  | blank {ls : List String} {groups : List (List String)} {l : String} (hb : isBlankLine l = true)
      (h : IsGrouping ls groups) : IsGrouping (l :: ls) groups
  | group {ls : List String} {groups : List (List String)} {group : List String} {input : String} (hne : group ≠ [])
      (hlines : ∀ l ∈ group, isBlankLine l = false ∧ inputColumn l = input)
      (hend : ∀ l ∈ ls.head?, isBlankLine l = true ∨ inputColumn l ≠ input) (h : IsGrouping ls groups) :
      IsGrouping (group ++ ls) (group :: groups)

variable {ls : List String} {groups groups' : List (List String)} {group : List String} {input : String}

theorem IsGrouping.of_blank (hb : isBlankLine l = true) (h : IsGrouping (l :: ls) groups) : IsGrouping ls groups := by
  generalize hlines : l :: ls = lines at h
  cases h with
  | done => cases hlines
  | blank _ h =>
    cases hlines
    exact h
  | group hne hgroup _ _ =>
    obtain ⟨first, others, rfl⟩ := List.exists_cons_of_ne_nil hne
    cases hlines
    rw [(hgroup _ (List.mem_cons_self ..)).1] at hb
    cases hb

/-- The lines of a group are all those in front that are not blank and have its input. -/
private theorem takeWhile_group (hgroup : ∀ l ∈ group, isBlankLine l = false ∧ inputColumn l = input)
    (hend : ∀ l ∈ ls.head?, isBlankLine l = true ∨ inputColumn l ≠ input) :
    (group ++ ls).takeWhile (fun l => !isBlankLine l && inputColumn l == input) = group := by
  rw [List.takeWhile_append_of_pos (by simpa using hgroup)]
  cases ls with
  | nil => exact List.append_nil _
  | cons l ls =>
    have hl : (!isBlankLine l && inputColumn l == input) = false := by
      rcases hend l rfl with hb | hne
      · rw [hb]
        rfl
      · rw [beq_eq_false_iff_ne.2 hne, Bool.and_false]
    rw [List.takeWhile_cons_of_neg (by rw [hl]; exact Bool.false_ne_true), List.append_nil]

private theorem IsGrouping.of_group (hne : group ≠ [])
    (hgroup : ∀ l ∈ group, isBlankLine l = false ∧ inputColumn l = input)
    (hend : ∀ l ∈ ls.head?, isBlankLine l = true ∨ inputColumn l ≠ input) (h : IsGrouping (group ++ ls) groups) :
    ∃ others, groups = group :: others ∧ IsGrouping ls others := by
  obtain ⟨first, rest, rfl⟩ := List.exists_cons_of_ne_nil hne
  obtain ⟨hb, hinput⟩ := hgroup first (List.mem_cons_self ..)
  generalize hlines : first :: rest ++ ls = lines at h
  cases h with
  | done => cases hlines
  | blank hb' _ =>
    cases hlines
    rw [hb] at hb'
    cases hb'
  | @group ls' others group' input' hne' hgroup' hend' h =>
    -- both groups begin with the same line, so they have one input, and they end at the same line
    obtain ⟨first', rest', rfl⟩ := List.exists_cons_of_ne_nil hne'
    obtain ⟨rfl, hrest⟩ := List.cons.inj hlines
    have hinputs : input' = input := (hgroup' first (List.mem_cons_self ..)).2.symm.trans hinput
    subst hinputs
    have hwhole := takeWhile_group hgroup hend
    rw [hlines, takeWhile_group hgroup' hend'] at hwhole
    cases hwhole
    rw [List.append_cancel_left hrest]
    exact ⟨_, rfl, h⟩

/-- Lines are grouped in one way. -/
theorem IsGrouping.unique (h : IsGrouping ls groups) (h' : IsGrouping ls groups') : groups = groups' := by
  induction h generalizing groups' with
  | done =>
    generalize hlines : ([] : List String) = lines at h'
    cases h' with
    | done => rfl
    | blank _ _ => cases hlines
    | group hne _ _ _ => exact absurd (List.append_eq_nil_iff.1 hlines.symm).1 hne
  | blank hb _ ih => exact ih (h'.of_blank hb)
  | group hne hgroup hend _ ih =>
    obtain ⟨others, rfl, hothers⟩ := h'.of_group hne hgroup hend
    rw [ih hothers]

/-- Lines with one input that are put in front are a group of their own, or they join the group that was first. -/
theorem IsGrouping.exists_append (hne : group ≠ [])
    (hgroup : ∀ l ∈ group, isBlankLine l = false ∧ inputColumn l = input) (h : IsGrouping ls groups) :
    ∃ groups', IsGrouping (group ++ ls) groups' ∧
      (groups' = group :: groups ∨ groups'.length = groups.length) := by
  cases h with
  | done => exact ⟨_, .group hne hgroup (by simp) .done, .inl rfl⟩
  | blank hb h => exact ⟨_, .group hne hgroup (by simp [hb]) (.blank hb h), .inl rfl⟩
  | @group ls others first input' hne' hfirst hend h =>
    by_cases hi : input' = input
    · subst hi
      have hlonger : ∀ l ∈ group ++ first, isBlankLine l = false ∧ inputColumn l = input' :=
        List.forall_mem_append.2 ⟨hgroup, hfirst⟩
      have hjoined := IsGrouping.group (List.append_ne_nil_of_left_ne_nil hne first) hlonger hend h
      rw [List.append_assoc] at hjoined
      exact ⟨_, hjoined, .inr rfl⟩
    · refine ⟨_, .group hne hgroup ?_ (.group hne' hfirst hend h), .inl rfl⟩
      intro l hl
      rw [List.head?_append_of_ne_nil first hne'] at hl
      exact .inr fun heq => hi ((hfirst l (List.mem_of_mem_head? hl)).2.symm.trans heq)

theorem exists_isGrouping (ls : List String) : ∃ groups, IsGrouping ls groups := by
  induction ls with
  | nil => exact ⟨[], .done⟩
  | cons l ls ih =>
    obtain ⟨groups, h⟩ := ih
    cases hb : isBlankLine l with
    | true => exact ⟨groups, .blank hb h⟩
    | false =>
      have hself : ∀ l' ∈ [l], isBlankLine l' = false ∧ inputColumn l' = inputColumn l := by simp [hb]
      obtain ⟨groups', h', -⟩ := h.exists_append (List.cons_ne_nil l []) hself
      exact ⟨groups', h'⟩

theorem exists_unique_isGrouping (ls : List String) : ∃! groups, IsGrouping ls groups := by
  obtain ⟨groups, h⟩ := exists_isGrouping ls
  exact ⟨groups, h, fun _ h' => h'.unique h⟩

theorem IsGrouping.flatten_eq (h : IsGrouping ls groups) : groups.flatten = ls.filter (!isBlankLine ·) := by
  induction h with
  | done => rfl
  | blank hb _ ih => rw [ih, List.filter_cons_of_neg (by simp [hb])]
  | @group _ _ group _ _ hgroup _ _ ih =>
    have hkept : group.filter (!isBlankLine ·) = group := List.filter_eq_self.2 fun l hl => by simp [(hgroup l hl).1]
    rw [List.flatten_cons, List.filter_append, ih, hkept]

/-- A group is not empty, and its lines have one input. -/
theorem IsGrouping.input_of_mem (h : IsGrouping ls groups) (hg : group ∈ groups) :
    group ≠ [] ∧ ∃ input, ∀ l ∈ group, inputColumn l = input := by
  induction h with
  | done => cases hg
  | blank _ _ ih => exact ih hg
  | group hne hgroup _ _ ih =>
    rcases List.mem_cons.1 hg with rfl | hg
    · exact ⟨hne, _, fun l hl => (hgroup l hl).2⟩
    · exact ih hg

/-! ### One line after the other -/

namespace RowGroups

variable {g : RowGroups} {ended : List (List String)} {results : List String}

private theorem addRow_of_eq (result : String) :
    addRow ⟨ended, some (input, results)⟩ input result = ⟨ended, some (input, results ++ [result])⟩ :=
  if_pos rfl

private theorem addRow_of_ne {seen : String} (h : seen ≠ input) (result : String) :
    addRow ⟨ended, some (seen, results)⟩ input result = ⟨ended ++ [results], some (input, [result])⟩ :=
  if_neg h

private theorem addLine_of_blank (g : RowGroups) (hb : isBlankLine l = true) : g.addLine l = .ok g.close :=
  if_pos hb

private theorem addLine_of_row (g : RowGroups) (hb : isBlankLine l = false) (h : ¬ LacksResult l) :
    g.addLine l = .ok (g.addRow (inputColumn l) (resultColumn l)) := by
  rw [addLine, if_neg (ne_true_of_eq_false hb), readRow_of_not_lacksResult hb h]
  rfl

private theorem exists_addLine (g : RowGroups) (h : ¬ LacksResult l) : ∃ g', g.addLine l = .ok g' := by
  cases hb : isBlankLine l with
  | true => exact ⟨_, g.addLine_of_blank hb⟩
  | false => exact ⟨_, g.addLine_of_row hb h⟩

private theorem addLine_of_lacksResult (g : RowGroups) (h : LacksResult l) :
    g.addLine l = .error (.noResultColumn l) := by
  rw [addLine, if_neg (ne_true_of_eq_false h.1), readRow_of_notMem h.2]
  rfl

private theorem collect_cons {g' : RowGroups} (h : g.addLine l = .ok g') : g.collect (l :: ls) = g'.collect ls := by
  rw [collect, h]
  rfl

/-- The lines of a group go into it, one after the other. -/
private theorem collect_append (hgroup : ∀ l ∈ group, isBlankLine l = false ∧ inputColumn l = input)
    (hrows : ∀ l ∈ group, ¬ LacksResult l) : collect ⟨ended, some (input, results)⟩ (group ++ ls) =
      collect ⟨ended, some (input, results ++ group.map resultColumn)⟩ ls := by
  induction group generalizing results with
  | nil => rw [List.nil_append, List.map_nil, List.append_nil]
  | cons l group ih =>
    obtain ⟨⟨hb, hinput⟩, hgroup⟩ := List.forall_mem_cons.1 hgroup
    obtain ⟨hl, hrows⟩ := List.forall_mem_cons.1 hrows
    have hjoins : addLine ⟨ended, some (input, results)⟩ l =
        .ok ⟨ended, some (input, results ++ [resultColumn l])⟩ := by
      rw [addLine_of_row _ hb hl, hinput, addRow_of_eq]
    rw [List.cons_append, collect_cons hjoins, ih hgroup hrows, List.map_cons, List.append_assoc,
      List.singleton_append]

/-- Where a group ends, it does not matter whether it is still open. -/
private theorem collect_close (hend : ∀ l ∈ ls.head?, isBlankLine l = true ∨ inputColumn l ≠ input)
    (hrows : ∀ l ∈ ls, ¬ LacksResult l) :
    collect ⟨ended, some (input, results)⟩ ls = collect ⟨ended ++ [results], none⟩ ls := by
  cases ls with
  | nil => rfl
  | cons l ls =>
    have hl := hrows l (List.mem_cons_self ..)
    cases hb : isBlankLine l with
    | true => rw [collect_cons (addLine_of_blank _ hb), collect_cons (addLine_of_blank _ hb)]; rfl
    | false =>
      have hne : input ≠ inputColumn l := ((hend l rfl).resolve_left (ne_true_of_eq_false hb)).symm
      rw [collect_cons (addLine_of_row _ hb hl), collect_cons (addLine_of_row _ hb hl), addRow_of_ne hne]
      rfl

/-- The first line without a result is reported. -/
private theorem collect_of_lacksResult {before after : List String} (hbefore : ∀ l ∈ before, ¬ LacksResult l)
    (hl : LacksResult l) : g.collect (before ++ l :: after) = .error (.noResultColumn l) := by
  induction before generalizing g with
  | nil =>
    rw [List.nil_append, collect, g.addLine_of_lacksResult hl]
    rfl
  | cons l' before ih =>
    obtain ⟨hl', hbefore⟩ := List.forall_mem_cons.1 hbefore
    obtain ⟨g', hg'⟩ := g.exists_addLine hl'
    rw [List.cons_append, collect_cons hg', ih hbefore]

end RowGroups

/-- The reader groups the lines that have results. -/
theorem IsGrouping.collect_eq (h : IsGrouping ls groups) (hrows : ∀ l ∈ ls, ¬ LacksResult l)
    (ended : List (List String)) :
    RowGroups.collect ⟨ended, none⟩ ls = .ok (ended ++ groups.map (·.map resultColumn)) := by
  induction h generalizing ended with
  | done => exact congrArg Except.ok (List.append_nil _).symm
  | blank hb _ ih =>
    rw [RowGroups.collect_cons (RowGroups.addLine_of_blank _ hb)]
    exact ih (List.forall_mem_cons.1 hrows).2 ended
  | @group ls groups group input hne hgroup hend _ ih =>
    obtain ⟨first, others, rfl⟩ := List.exists_cons_of_ne_nil hne
    obtain ⟨⟨hb, hinput⟩, hothers⟩ := List.forall_mem_cons.1 hgroup
    obtain ⟨hfirst, hrows⟩ := List.forall_mem_cons.1 hrows
    obtain ⟨hrowsOthers, hrows⟩ := List.forall_mem_append.1 hrows
    rw [List.cons_append, RowGroups.collect_cons (RowGroups.addLine_of_row _ hb hfirst), hinput]
    refine (RowGroups.collect_append hothers hrowsOthers).trans ?_
    rw [RowGroups.collect_close hend hrows, ih hrows, List.append_assoc]
    rfl

/-! ### The reader -/

variable {inputs : List String} {text : String}

/-- What the reader does with lines that have results: it counts their groups. -/
theorem read_eq_of_isGrouping (inputs : List String) (h : ∀ l ∈ Text.lines text, ¬ LacksResult l)
    (hg : IsGrouping (Text.lines text) groups) :
    read inputs text = if groups.length = inputs.length then .ok (groups.map (·.map resultColumn))
      else .error (.groupCount inputs.length groups.length) := by
  rw [read, hg.collect_eq h, List.nil_append]
  show (if _ then Except.ok _ else Except.error _) = _
  rw [List.length_map]

theorem read_eq_ok_iff (h : ∀ l ∈ Text.lines text, ¬ LacksResult l) (hg : IsGrouping (Text.lines text) groups)
    (results : List (List String)) : read inputs text = .ok results ↔
      groups.length = inputs.length ∧ results = groups.map (·.map resultColumn) := by
  rw [read_eq_of_isGrouping inputs h hg]
  by_cases hlength : groups.length = inputs.length
  · rw [if_pos hlength, Except.ok.injEq, and_iff_right hlength, eq_comm]
  · rw [if_neg hlength]
    exact iff_of_false nofun fun h => hlength h.1

/-- If a line has no result, the first such line is reported. -/
theorem read_of_lacksResult (inputs : List String) (h : ∃ l ∈ Text.lines text, LacksResult l) :
    ∃ l, (Text.lines text).find? (decide <| LacksResult ·) = some l ∧
      read inputs text = .error (.noResultColumn l) := by
  have hfound : ((Text.lines text).find? (decide <| LacksResult ·)).isSome = true :=
    List.find?_isSome.2 (by simpa using h)
  obtain ⟨l, hl⟩ := Option.isSome_iff_exists.1 hfound
  obtain ⟨hlacks, before, after, hlines, hbefore⟩ := List.find?_eq_some_iff_append.1 hl
  have hrows : ∀ l' ∈ before, ¬ LacksResult l' := fun l' hl' => by simpa using hbefore l' hl'
  refine ⟨l, hl, ?_⟩
  rw [read, hlines, RowGroups.collect_of_lacksResult hrows (decide_eq_true_eq.mp hlacks)]
  rfl

/-- The reader fails if a line that is not blank has no tab, and else exactly if there are not as many groups of lines
as inputs.  What it gives are the result columns of these groups, so no result is lost, doubled or moved. -/
theorem read_grouping (inputs : List String) (text : String) :
    ((∃ l ∈ Text.lines text, LacksResult l) → ∃ l, (Text.lines text).find? (decide <| LacksResult ·) = some l ∧
      read inputs text = .error (.noResultColumn l)) ∧
    (∃! groups, IsGrouping (Text.lines text) groups) ∧
    ((∀ l ∈ Text.lines text, ¬ LacksResult l) → ∀ groups, IsGrouping (Text.lines text) groups →
      ((∃ results, read inputs text = .ok results) ↔ groups.length = inputs.length) ∧
      ∀ results, read inputs text = .ok results → results = groups.map (·.map resultColumn) ∧
        (∀ group ∈ results, group ≠ []) ∧
        results.flatten = ((Text.lines text).filter (!isBlankLine ·)).map resultColumn) := by
  refine ⟨read_of_lacksResult inputs, exists_unique_isGrouping _, fun h groups hg => ?_⟩
  refine ⟨⟨?_, fun hlength => ⟨_, (read_eq_ok_iff h hg _).2 ⟨hlength, rfl⟩⟩⟩, ?_⟩
  · rintro ⟨results, hresults⟩
    exact ((read_eq_ok_iff h hg results).1 hresults).1
  · intro results hresults
    obtain ⟨-, rfl⟩ := (read_eq_ok_iff h hg results).1 hresults
    refine ⟨rfl, ?_, ?_⟩
    · refine List.forall_mem_map.2 fun group hgroup => ?_
      exact mt List.map_eq_nil_iff.1 (hg.input_of_mem hgroup).1
    · rw [← List.map_flatten, hg.flatten_eq]

/-- A group of two results, one of them with the marker, and a group of one. -/
def eatsOutput : String :=
  "eats\teat+V\t0.5\neats\teats+?\tinf\n\nate\teat+V+Past\n"

theorem read_grouping_eats :
    read ["eats", "ate"] eatsOutput = .ok [["eat+V", ""], ["eat+V+Past"]] ∧
      [["eat+V", ""], ["eat+V+Past"]].flatten =
        ((Text.lines eatsOutput).filter (!isBlankLine ·)).map resultColumn ∧
      ∃ l, read ["eats", "ate"] "eats\teat+V\n\nate\n" = .error (.noResultColumn l) := by
  have hlines : Text.lines eatsOutput =
      ["eats\teat+V\t0.5", "eats\teats+?\tinf"] ++ "" :: (["ate\teat+V+Past"] ++ []) := by decide +kernel
  have hgrouping : IsGrouping (Text.lines eatsOutput)
      [["eats\teat+V\t0.5", "eats\teats+?\tinf"], ["ate\teat+V+Past"]] := by
    have heats : ∀ l ∈ ["eats\teat+V\t0.5", "eats\teats+?\tinf"], isBlankLine l = false ∧ inputColumn l = "eats" := by
      decide +kernel
    have hate : ∀ l ∈ ["ate\teat+V+Past"], isBlankLine l = false ∧ inputColumn l = "ate" := by decide +kernel
    rw [hlines]
    have hblank : isBlankLine "" = true := by decide +kernel
    exact .group (by simp) heats (by simp [hblank]) (.blank hblank (.group (by simp) hate (by simp) .done))
  obtain ⟨-, -, hread⟩ := read_grouping ["eats", "ate"] eatsOutput
  obtain ⟨hcount, hgroups⟩ := hread (by decide +kernel) _ hgrouping
  obtain ⟨results, hresults⟩ := hcount.2 rfl
  obtain ⟨heq, -, hflatten⟩ := hgroups results hresults
  have hvalues : results = [["eat+V", ""], ["eat+V+Past"]] := heq.trans (by decide +kernel)
  subst hvalues
  obtain ⟨l, -, hl⟩ := (read_grouping ["eats", "ate"] "eats\teat+V\n\nate\n").1 (by decide +kernel)
  exact ⟨hresults, hflatten, l, hl⟩

end LexicalTransducer.Report
