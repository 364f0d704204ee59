import LexicalTransducer.Net.Section
import LexicalTransducer.Text.Lines
import Mathlib.Data.List.Basic

/-!
# Header lines and content

A line is a header of a section exactly if it is the name of the section between number signs
(`ofLine_eq_header`), and it is content exactly if it is neither such a header nor the header of a net in another
version (`ofLine_eq_content`).  Blank lines are content.
-/

namespace LexicalTransducer

def Section.line (s : Section) : String :=
  "##" ++ s.name ++ "##"

/-- A line that opens no section, nor a net in another version. -/
def IsContent (line : String) : Prop :=
  (∀ s : Section, line ≠ s.line) ∧ ∀ rest : String, line ≠ "##foma-net" ++ rest ++ "##"

private theorem Section.ofName?_eq_some {name : String} {s : Section} :
    Section.ofName? name = some s ↔ s.name = name := by
  constructor
  · intro h
    have := List.find?_some h
    exact eq_of_beq this
  · rintro rfl
    cases s <;> decide +kernel

private theorem betweenMarks?_eq_some {cs inner : List Char} :
    betweenMarks? cs = some inner ↔ cs = "##".toList ++ inner ++ "##".toList := by
  have hmarks : "##".toList = ['#', '#'] := by decide +kernel
  rw [hmarks]
  constructor
  · intro h
    unfold betweenMarks? at h
    split at h
    · rename_i rest
      split at h
      · rename_i rest' hr
        cases h
        have hrest : rest = rest'.reverse ++ ['#', '#'] := by
          rw [← List.reverse_reverse rest, hr]
          simp
        rw [hrest]
        simp
      · cases h
    · cases h
  · rintro rfl
    simp [betweenMarks?]

private theorem betweenMarks?_toList {line : String} {inner : List Char} :
    betweenMarks? line.toList = some inner ↔ line = "##" ++ String.ofList inner ++ "##" := by
  rw [betweenMarks?_eq_some, ← String.toList_inj, String.toList_append, String.toList_append,
    String.toList_ofList (l := inner)]

namespace LineKind

theorem ofLine_eq_header {line : String} {s : Section} : ofLine line = .header s ↔ line = s.line := by
  unfold ofLine
  constructor
  · intro h
    split at h
    · cases h
    · rename_i inner hm
      split at h
      · rename_i s' hs
        cases h
        rw [betweenMarks?_toList.1 hm, ← Section.ofName?_eq_some.1 hs]
        rfl
      · split at h <;> cases h
  · rintro rfl
    have hm : betweenMarks? s.line.toList = some s.name.toList := by
      rw [betweenMarks?_toList, String.ofList_toList]
      rfl
    have hs : Section.ofName? (String.ofList s.name.toList) = some s := by
      rw [String.ofList_toList, Section.ofName?_eq_some]
    simp only [hm, hs]

private theorem ofLine_eq_foreignHeader {line name : String} (h : ofLine line = .foreignHeader name) :
    ∃ rest : String, line = "##foma-net" ++ rest ++ "##" := by
  unfold ofLine at h
  split at h
  · cases h
  · rename_i inner hm
    split at h
    · cases h
    · split at h
      · rename_i hp
        obtain ⟨rest, rfl⟩ := List.isPrefixOf_iff_prefix.1 hp
        refine ⟨String.ofList rest, ?_⟩
        rw [betweenMarks?_toList.1 hm, String.ofList_append, String.ofList_toList]
        have hname : "##foma-net" = "##" ++ "foma-net" := by decide +kernel
        rw [hname]
        simp only [String.append_assoc]
      · cases h

theorem ofLine_eq_content {line : String} : ofLine line = .content ↔ IsContent line := by
  constructor
  · intro h
    refine ⟨fun s hs => ?_, fun rest hrest => ?_⟩
    · rw [ofLine_eq_header.2 hs] at h
      cases h
    · have hm : betweenMarks? line.toList = some ("foma-net".toList ++ rest.toList) := by
        have hname : "##foma-net" = "##" ++ "foma-net" := by decide +kernel
        rw [betweenMarks?_toList, hrest, hname, String.ofList_append, String.ofList_toList, String.ofList_toList]
        simp only [String.append_assoc]
      have hp : "foma-net".toList.isPrefixOf ("foma-net".toList ++ rest.toList) = true :=
        List.isPrefixOf_iff_prefix.2 (List.prefix_append _ _)
      unfold ofLine at h
      simp only [hm, hp, ↓reduceIte] at h
      split at h <;> cases h
  · intro h
    cases hk : ofLine line with
    | content => rfl
    | header s => exact absurd (ofLine_eq_header.1 hk) (h.1 s)
    | foreignHeader name =>
      obtain ⟨rest, hrest⟩ := ofLine_eq_foreignHeader hk
      exact absurd hrest (h.2 rest)

/-- A number sign is not blank. -/
theorem ofLine_of_isBlankLine {line : String} (h : Text.isBlankLine line = true) : ofLine line = .content := by
  have hm : betweenMarks? line.toList = none := by
    cases hm : betweenMarks? line.toList with
    | none => rfl
    | some inner =>
      have hmem : '#' ∈ line.toList := by
        rw [betweenMarks?_eq_some.1 hm]
        exact List.mem_append_right _ (by decide +kernel)
      have hblank := List.all_eq_true.1 h '#' hmem
      exact absurd hblank (by decide)
  unfold ofLine
  rw [hm]

end LineKind

end LexicalTransducer
