import LexicalTransducer.Text.Lines
import Mathlib.Data.List.SplitBy

/-!
# The first lines of a text

A text can be cut off in front of any of its lines (`Text.before`), and what is left has the lines that stand in front
of this one (`lines_before`).
-/

namespace LexicalTransducer.Text

/-- The first `n` lines of a text with their endings, or the whole text if it has no more lines. -/
def firstLines : Nat → List Char → List Char
  | 0, _ => []
  | _ + 1, [] => []
  | n + 1, c :: cs => c :: firstLines (if c = '\n' then n else n + 1) cs

/-- The text up to where its line with the number `n` starts. -/
def before (n : Nat) (text : String) : String :=
  String.ofList (firstLines (n - 1) text.toList)

variable {n : Nat} {cs piece rest : List Char}

/-! ### A text by its first line -/

private theorem firstLines_of_notMem (h : '\n' ∉ piece) : firstLines (n + 1) piece = piece := by
  induction piece with
  | nil => rfl
  | cons c cs ih =>
    rw [List.mem_cons, not_or] at h
    rw [firstLines, if_neg (Ne.symm h.1), ih h.2]

private theorem firstLines_append (h : '\n' ∉ piece) :
    firstLines (n + 1) (piece ++ '\n' :: rest) = piece ++ '\n' :: firstLines n rest := by
  induction piece with
  | nil =>
    rw [List.nil_append, firstLines, if_pos rfl, List.nil_append]
  | cons c cs ih =>
    rw [List.mem_cons, not_or] at h
    rw [List.cons_append, firstLines, if_neg (Ne.symm h.1), ih h.2, List.cons_append]

private theorem lines_of_notMem (h : '\n' ∉ piece) :
    lines (String.ofList piece) = if piece.isEmpty then [] else [String.ofList piece] := by
  have hcut : piece.splitOn '\n' = [piece] := by
    rw [List.splitOn_eq_splitOnP]
    refine List.splitOnP_eq_singleton fun c hc => ?_
    rw [beq_eq_false_iff_ne]
    rintro rfl
    exact h hc
  rw [lines, String.toList_ofList, hcut]
  cases piece <;> rfl

private theorem lines_append (h : '\n' ∉ piece) : lines (String.ofList (piece ++ '\n' :: rest)) =
    String.ofList (dropReturn piece) :: lines (String.ofList rest) := by
  have hcut : (piece ++ '\n' :: rest).splitOn '\n' = piece :: rest.splitOn '\n' := by
    rw [List.splitOn_eq_splitOnP, List.splitOn_eq_splitOnP]
    refine List.splitOnP_append_cons_of_forall_mem (p := (· == '\n')) (fun c hc => ?_) '\n' (beq_self_eq_true '\n') rest
    rw [beq_eq_false_iff_ne]
    rintro rfl
    exact h hc
  have hne : rest.splitOn '\n' ≠ [] := by
    rw [List.splitOn_eq_splitOnP]
    exact List.splitOnP_ne_nil _ _
  rw [lines, String.toList_ofList, hcut, List.dropLast_cons_of_ne_nil hne, List.getLast?_cons_of_ne_nil hne,
    lines, String.toList_ofList]
  rfl

/-! ### A text that is cut off -/

private theorem lines_firstLines (n : Nat) (cs : List Char) :
    lines (String.ofList (firstLines n cs)) = (lines (String.ofList cs)).take n := by
  induction n generalizing cs with
  | zero => rw [firstLines, lines_of_notMem List.not_mem_nil, List.take_zero, List.isEmpty_nil, if_pos rfl]
  | succ n ih =>
    by_cases hfeed : '\n' ∈ cs
    · obtain ⟨piece, rest, rfl, hpiece⟩ := List.eq_append_cons_of_mem hfeed
      rw [firstLines_append hpiece, lines_append hpiece, lines_append hpiece, ih, List.take_succ_cons]
    · rw [firstLines_of_notMem hfeed, lines_of_notMem hfeed]
      split
      · rw [List.take_nil]
      · rw [List.take_succ_cons, List.take_nil]

theorem lines_before (n : Nat) (text : String) : lines (before n text) = (lines text).take (n - 1) := by
  rw [before, lines_firstLines, String.ofList_toList]

end LexicalTransducer.Text
