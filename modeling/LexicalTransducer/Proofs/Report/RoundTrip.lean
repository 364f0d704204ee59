import LexicalTransducer.Proofs.Report.Grouping

/-!
# Printed lookups are read back

What is printed for an input is a row of lines with a blank line behind it.  So the groups of the lines are those that
have been printed, also where neighbouring inputs are equal (`isGrouping_print`), and the reader finds the results in
them (`read_print`), but those in which the marker for "no result" stands.
-/

namespace LexicalTransducer

namespace Text

private theorem dropReturn_eq_self {cs : List Char} (h : cs.getLast? ≠ some '\r') : dropReturn cs = cs :=
  if_neg h

/-- A text of lines with a line feed behind each has these lines. -/
private theorem lines_of_toList {text : String} {ls : List String}
    (ht : text.toList = (ls.map String.toList).flatMap (· ++ ['\n']))
    (h : ∀ l ∈ ls, '\n' ∉ l.toList ∧ l.toList.getLast? ≠ some '\r') : lines text = ls := by
  have hcut : text.toList.splitOn '\n' = ls.map String.toList ++ [[]] := by
    rw [ht, List.splitOn_eq_splitOnP]
    refine splitOnP_flatMap ?_ fun piece hp c hc => ?_
    · exact beq_self_eq_true '\n'
    · obtain ⟨l, hl, rfl⟩ := List.mem_map.1 hp
      rw [beq_eq_false_iff_ne]
      rintro rfl
      exact (h l hl).1 hc
  have hpieces : (ls.map String.toList).map dropReturn = ls.map String.toList := by
    rw [List.map_map]
    exact List.map_congr_left fun l hl => dropReturn_eq_self (h l hl).2
  rw [lines, hcut, List.dropLast_concat, List.getLast?_concat, hpieces]
  simp

private theorem isBlankLine_append (a b : String) : isBlankLine (a ++ b) = (isBlankLine a && isBlankLine b) := by
  rw [isBlankLine, String.toList_append, List.all_append, isBlankLine, isBlankLine]

end Text

namespace Report

open Text

/-- What comes back for the results of an input. -/
def readBack (results : List String) : List String :=
  if results.isEmpty then [""] else results.map fun r => if noResult.toList <:+: r.toList then "" else r

/-- The lines of an input and its results can be told apart from each other and from their surroundings: neither column
ends early, and no line is blank. -/
structure IsLegible (input : String) (results : List String) : Prop where
  input_chars : '\t' ∉ input.toList ∧ '\n' ∉ input.toList
  result_chars : ∀ r ∈ results, '\t' ∉ r.toList ∧ '\n' ∉ r.toList ∧ r.toList.getLast? ≠ some '\r'
  visible : isBlankLine input = true → ∀ r ∈ results, isBlankLine r = false

/-- What is printed as the results of an input. -/
def shown (results : List String) : List String :=
  if results.isEmpty then [noResult] else results

def shownLines (input : String) (results : List String) : List String :=
  (shown results).map fun r => input ++ "\t" ++ r

variable {input : String} {results : List String}

private theorem shown_ne_nil : shown results ≠ [] := by
  unfold shown
  split
  · exact List.cons_ne_nil _ _
  · rename_i h
    rwa [List.isEmpty_iff] at h

private theorem IsLegible.shown (h : IsLegible input results) : IsLegible input (shown results) := by
  unfold Report.shown
  split
  · -- the marker is legible
    refine ⟨h.input_chars, fun r hr => ?_, fun _ r hr => ?_⟩ <;> rw [List.mem_singleton.1 hr] <;> decide +kernel
  · exact h

private theorem reported_eq (r : String) : reported r.toList = if noResult.toList <:+: r.toList then "" else r := by
  rw [reported, String.ofList_toList]
  exact if_congr holdsMarker_iff rfl rfl

private theorem map_reported_shown (results : List String) :
    (shown results).map (fun r => reported r.toList) = readBack results := by
  unfold shown readBack
  split
  · decide +kernel
  · exact List.map_congr_left fun r _ => reported_eq r

/-! ### One group -/

private theorem columns_of_row {result : String} (hi : '\t' ∉ input.toList) (hr : '\t' ∉ result.toList) :
    inputColumn (input ++ "\t" ++ result) = input ∧
      resultColumn (input ++ "\t" ++ result) = reported result.toList := by
  have htab : "\t".toList = ['\t'] := by decide +kernel
  have hmem : '\t' ∈ (input ++ "\t" ++ result).toList := by
    rw [String.toList_append, String.toList_append, htab]
    simp
  have hcut : (input ++ "\t" ++ result).toList.splitOn '\t' = [input.toList, result.toList] := by
    rw [String.toList_append, String.toList_append, htab, List.append_assoc, List.singleton_append,
      List.splitOn_append_cons_self_of_not_mem hi, List.splitOn_eq_singleton hr]
  have hrow := readRow_of_mem hmem
  rw [readRow, hcut] at hrow
  simp only [String.ofList_toList, Except.ok.injEq, Prod.mk.injEq] at hrow
  exact ⟨hrow.1.symm, hrow.2.symm⟩

private theorem toList_printGroup (input : String) (results : List String) : (printGroup input results).toList =
    ((shownLines input results ++ [""]).map String.toList).flatMap (· ++ ['\n']) := by
  have hfeed : "\n".toList = ['\n'] := by decide +kernel
  have hrows : printGroup input results = String.join ((shown results).map (row input)) ++ "\n" := by
    unfold printGroup shown
    split <;> rfl
  rw [hrows, String.toList_append, String.toList_join, List.map_append, List.flatMap_append, shownLines, List.map_map,
    List.flatMap_map, List.flatMap_map]
  congr 1
  · refine List.flatMap_congr fun r _ => ?_
    rw [row, String.toList_append, hfeed]
    rfl

private theorem IsLegible.line (h : IsLegible input results) {l : String} (hl : l ∈ shownLines input results) :
    '\n' ∉ l.toList ∧ l.toList.getLast? ≠ some '\r' ∧ isBlankLine l = false := by
  obtain ⟨r, hr, rfl⟩ := List.mem_map.1 hl
  obtain ⟨-, hfeed, hreturn⟩ := h.shown.result_chars r hr
  have htab : "\t".toList = ['\t'] := by decide +kernel
  rw [isBlankLine_append, isBlankLine_append, String.toList_append, String.toList_append, htab]
  refine ⟨?_, ?_, ?_⟩
  · simp [h.input_chars.2, hfeed]
  · -- the last character is that of the result, or the tab
    rw [List.getLast?_append]
    cases hlast : r.toList.getLast? with
    | none => simp
    | some c => rwa [hlast] at hreturn
  · cases hb : isBlankLine input with
    | false => rfl
    | true => rw [h.shown.visible hb r hr, Bool.and_false]

private theorem IsLegible.inputColumn_eq (h : IsLegible input results) {l : String}
    (hl : l ∈ shownLines input results) : inputColumn l = input := by
  obtain ⟨r, hr, rfl⟩ := List.mem_map.1 hl
  exact (columns_of_row h.input_chars.1 (h.shown.result_chars r hr).1).1

private theorem IsLegible.map_resultColumn (h : IsLegible input results) :
    (shownLines input results).map resultColumn = readBack results := by
  rw [shownLines, List.map_map, ← map_reported_shown]
  exact List.map_congr_left fun r hr => (columns_of_row h.input_chars.1 (h.shown.result_chars r hr).1).2

private theorem not_lacksResult_of_mem {l : String} (hl : l ∈ shownLines input results) : ¬ LacksResult l := by
  obtain ⟨r, -, rfl⟩ := List.mem_map.1 hl
  rintro ⟨-, hnone⟩
  have htab : "\t".toList = ['\t'] := by decide +kernel
  rw [String.toList_append, String.toList_append, htab] at hnone
  exact hnone (by simp)

/-! ### All groups -/

variable {inputs : List String} {groups : List (List String)}

/-- The lines of a printed lookup, the blank ones between the groups among them. -/
private theorem lines_print (h : ∀ p ∈ inputs.zip groups, IsLegible p.1 p.2) : Text.lines (print inputs groups) =
    (inputs.zip groups).flatMap fun p => shownLines p.1 p.2 ++ [""] := by
  refine lines_of_toList ?_ fun l hl => ?_
  · rw [print, String.toList_join, List.flatMap_map, List.map_flatMap, List.flatMap_assoc]
    exact List.flatMap_congr fun p _ => toList_printGroup p.1 p.2
  · obtain ⟨p, hp, hl⟩ := List.mem_flatMap.1 hl
    rcases List.mem_append.1 hl with hl | hl
    · exact ⟨((h p hp).line hl).1, ((h p hp).line hl).2.1⟩
    · rw [List.mem_singleton.1 hl]
      decide +kernel

/-- The lines are grouped as they have been printed. -/
theorem isGrouping_print (h : ∀ p ∈ inputs.zip groups, IsLegible p.1 p.2) :
    IsGrouping (Text.lines (print inputs groups)) ((inputs.zip groups).map fun p => shownLines p.1 p.2) := by
  have hblank : isBlankLine "" = true := by decide +kernel
  rw [lines_print h]
  generalize inputs.zip groups = pairs at h
  induction pairs with
  | nil => exact .done
  | cons p pairs ih =>
    obtain ⟨hp, hpairs⟩ := List.forall_mem_cons.1 h
    rw [List.flatMap_cons, List.append_assoc, List.singleton_append, List.map_cons]
    have hlines : ∀ l ∈ shownLines p.1 p.2, isBlankLine l = false ∧ inputColumn l = p.1 :=
      fun l hl => ⟨(hp.line hl).2.2, hp.inputColumn_eq hl⟩
    -- the line behind a group is blank, also when the next group has the same input
    exact .group (mt List.map_eq_nil_iff.1 shown_ne_nil) hlines (by simp [hblank]) (.blank hblank (ih hpairs))

/-- A printed lookup is read as the lookup it has been printed from. -/
theorem read_print (hlength : groups.length = inputs.length) (h : ∀ p ∈ inputs.zip groups, IsLegible p.1 p.2) :
    read inputs (print inputs groups) = .ok (groups.map readBack) := by
  have hrows : ∀ l ∈ Text.lines (print inputs groups), ¬ LacksResult l := by
    rw [lines_print h]
    intro l hl
    obtain ⟨p, -, hl⟩ := List.mem_flatMap.1 hl
    rcases List.mem_append.1 hl with hl | hl
    · exact not_lacksResult_of_mem hl
    · rw [List.mem_singleton.1 hl]
      decide +kernel
  have hcount : ((inputs.zip groups).map fun p => shownLines p.1 p.2).length = inputs.length := by
    rw [List.length_map, List.length_zip, hlength, Nat.min_self]
  have hresults : ((inputs.zip groups).map fun p => shownLines p.1 p.2).map (·.map resultColumn) =
      groups.map readBack := by
    conv_rhs => rw [← List.map_snd_zip (Nat.le_of_eq hlength), List.map_map]
    rw [List.map_map]
    exact List.map_congr_left fun p hp => (h p hp).map_resultColumn
  exact (read_eq_ok_iff hrows (isGrouping_print h) _).2 ⟨hcount, hresults.symm⟩

end Report

end LexicalTransducer
