import LexicalTransducer.Proofs.Net.FirstFault
import LexicalTransducer.Proofs.Net.Grammar

/-!
# Blank lines

Texts with the same lines but for the blank ones are read alike (`ofText_alike`): as the same net, as broken off inside
the same section, or with the same fault of the same line, which may have another number in each text.
-/

namespace LexicalTransducer.Net

open Progress

/-- The lines that are not blank. -/
def contentLines (lines : List String) : List String :=
  lines.filter (!Text.isBlankLine ·)

/-- The lines that are not blank, with their numbers. -/
def numberedContent (lines : List String) : List (String × Nat) :=
  (lines.zipIdx 1).filter (!Text.isBlankLine ·.1)

/-- Two readings of lines with the same content.  An error is of the same line of the content, and has in each reading
the number that this line has there. -/
inductive Alike (lines lines' : List String) : Except NetError Net → Except NetError Net → Prop
  | net (net : Net) : Alike lines lines' (.ok net) (.ok net)
  | truncated (s : Section) : Alike lines lines' (.error (.truncated s)) (.error (.truncated s))
  | atLine {k n n' : Nat} {l : String} (fault : NetFault) (h : (numberedContent lines)[k]? = some (l, n))
      (h' : (numberedContent lines')[k]? = some (l, n')) :
      Alike lines lines' (.error (.atLine n fault)) (.error (.atLine n' fault))

variable {orientation : Orientation} {text text' l : String} {lines lines' earlier later : List String} {n : Nat}
  {fault : NetFault}

private theorem map_numberedContent (lines : List String) :
    (numberedContent lines).map Prod.fst = contentLines lines := by
  have h := List.filter_map (f := Prod.fst) (p := (!Text.isBlankLine ·)) (l := lines.zipIdx 1)
  rw [List.zipIdx_map_fst] at h
  exact h.symm

/-- A line stands in the content behind as many lines as those in front of it that are not blank. -/
private theorem getElem?_numberedContent (hl : Text.isBlankLine l = false) :
    (numberedContent (earlier ++ l :: later))[(contentLines earlier).length]? = some (l, earlier.length + 1) := by
  have hlength : (contentLines earlier).length = (numberedContent earlier).length := by
    rw [← map_numberedContent, List.length_map]
  have hsplit : numberedContent (earlier ++ l :: later) = numberedContent earlier ++
      (l, 1 + earlier.length) :: (later.zipIdx (1 + earlier.length + 1)).filter (!Text.isBlankLine ·.1) := by
    rw [numberedContent, List.zipIdx_append, List.filter_append, List.zipIdx_cons,
      List.filter_cons_of_pos (by rw [hl]; rfl), numberedContent]
  rw [hsplit, hlength, List.getElem?_append_right (Nat.le_refl _), Nat.sub_self, List.getElem?_cons_zero,
    Nat.add_comm]

/-- A blank line is in no error. -/
private theorem isBlankLine_of_line_eq_error {p : Progress} (h : p.line orientation l = .error fault) :
    Text.isBlankLine l = false := by
  cases hb : Text.isBlankLine l with
  | false => rfl
  | true => cases h.symm.trans (line_eq_ok.2 ((reads_blank_iff hb).2 rfl))

private theorem steps_contentLines {p p' : Progress} (lines : List String) :
    Steps (Reads orientation) p (contentLines lines) p' ↔ Steps (Reads orientation) p lines p' :=
  steps_filter_iff

private theorem steps_iff_of_content {p p' : Progress} (h : contentLines lines = contentLines lines') :
    Steps (Reads orientation) p lines p' ↔ Steps (Reads orientation) p lines' p' := by
  rw [← steps_contentLines lines, ← steps_contentLines lines', h]

/-- Where the content is the same, the same line of it is in error. -/
private theorem FaultAt.of_content (hfault : FaultAt orientation lines n fault)
    (h : contentLines lines = contentLines lines') :
    ∃ (k : Nat) (l : String) (n' : Nat), (numberedContent lines)[k]? = some (l, n) ∧
      (numberedContent lines')[k]? = some (l, n') ∧ FaultAt orientation lines' n' fault := by
  obtain ⟨earlier, l, later, p, rfl, rfl, hs, hl⟩ := hfault
  have hb := isBlankLine_of_line_eq_error hl
  rw [contentLines, List.filter_append, List.filter_cons_of_pos (by rw [hb]; rfl)] at h
  obtain ⟨front, rest, rfl, hfront, hrest⟩ := List.filter_eq_append_iff.1 h.symm
  -- blank lines may stand between what is read and the line in error
  obtain ⟨gap, later', rfl, hgap, -, -⟩ := List.filter_eq_cons_iff.1 hrest
  have hcontent : contentLines earlier = contentLines (front ++ gap) := by
    rw [contentLines, contentLines, List.filter_append, hfront, List.filter_eq_nil_iff.2 hgap, List.append_nil]
  refine ⟨(contentLines earlier).length, l, (front ++ gap).length + 1, getElem?_numberedContent hb, ?_, ?_⟩
  · rw [hcontent, ← List.append_assoc]
    exact getElem?_numberedContent hb
  · exact ⟨front ++ gap, l, later', p, (List.append_assoc ..).symm, rfl, (steps_iff_of_content hcontent).1 hs, hl⟩

/-- Blank lines make no difference but to the numbers of lines. -/
theorem ofText_alike (orientation : Orientation)
    (h : contentLines (Text.lines text) = contentLines (Text.lines text')) :
    Alike (Text.lines text) (Text.lines text') (ofText text orientation) (ofText text' orientation) := by
  cases hof : ofText text orientation with
  | ok net =>
    obtain ⟨ps, b, s, hs, rfl⟩ := ofText_eq_ok.1 hof
    rw [ofText_eq_ok.2 ⟨ps, b, s, (steps_iff_of_content h).1 hs, rfl⟩]
    exact .net _
  | error e =>
    rcases ofText_eq_error.1 hof with ⟨n, fault, hfault, rfl⟩ | ⟨p, hs, hp⟩
    · obtain ⟨k, l, n', hk, hk', hfault'⟩ := hfault.of_content h
      rw [ofText_eq_atLine.2 hfault']
      exact .atLine fault hk hk'
    · obtain ⟨s, rfl⟩ := finish_eq_error hp
      rw [ofText_eq_error.2 (.inr ⟨p, (steps_iff_of_content h).1 hs, hp⟩)]
      exact .truncated s

/-- The net that defines one code twice, spread out over more lines and with other line endings. -/
def spreadOut : String :=
  "\r\n##foma-net 1.0##\r\n\n##props##\n \t\n1 1 1 1 1 1 1 1 1 1 1 1\n##sigma##\n3 a\n\n3 b\n\n##states##\r\n##end##"

theorem ofText_spreadOut_alike :
    contentLines (Text.lines twiceDefined) = contentLines (Text.lines spreadOut) ∧
      Alike (Text.lines twiceDefined) (Text.lines spreadOut) (.error (.atLine 6 (.duplicateSymbol 3)))
        (.error (.atLine 10 (.duplicateSymbol 3))) := by
  have h : contentLines (Text.lines twiceDefined) = contentLines (Text.lines spreadOut) := by decide +kernel
  have hfirst : ofText twiceDefined .normal = .error (.atLine 6 (.duplicateSymbol 3)) := by decide +kernel
  have hspread : ofText spreadOut .normal = .error (.atLine 10 (.duplicateSymbol 3)) := by decide +kernel
  have halike := ofText_alike .normal h
  rw [hfirst, hspread] at halike
  exact ⟨h, halike⟩

end LexicalTransducer.Net
