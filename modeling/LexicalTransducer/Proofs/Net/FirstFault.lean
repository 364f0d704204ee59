import LexicalTransducer.Proofs.Net.Headers
import LexicalTransducer.Proofs.Net.Reading
import LexicalTransducer.Proofs.Text.FirstLines

/-!
# The first fault

A text that is not read has a line in error with all lines in front of it read (`ofText_eq_atLine`), or all its lines
are read and the end of the net is not among them (`ofText_eq_truncated`).  So an error is settled by the lines up to
the one it names, and a text that ends in front of this line is in no line in error (`ofText_first_fault`).
-/

namespace LexicalTransducer.Net

open Progress

/-- The section that a line opens, if it is a header. -/
def openedBy? (line : String) : Option Section :=
  match LineKind.ofLine line with
  | .header s => some s
  | .content | .foreignHeader _ => none

/-- The section that is open behind some lines.  In front of all headers this is the net. -/
def openSection (lines : List String) : Section :=
  (lines.filterMap openedBy?).getLast?.getD .net

/-- Line `n` is in error: the lines in front of it are read, and it is not. -/
def FaultAt (orientation : Orientation) (lines : List String) (n : Nat) (fault : NetFault) : Prop :=
  ∃ earlier line later p, lines = earlier ++ line :: later ∧ n = earlier.length + 1 ∧
    Steps (Reads orientation) .start earlier p ∧ p.line orientation line = .error fault

namespace Progress

variable {orientation : Orientation} {p p' : Progress} {l : String} {ls : List String} {n : Nat} {s : Section}

/-! ### A line that is not read -/

private theorem lines_eq_error {e : NetError} : p.lines orientation n ls = .error e ↔
    ∃ earlier l later p' fault, ls = earlier ++ l :: later ∧ Steps (Reads orientation) p earlier p' ∧
      p'.line orientation l = .error fault ∧ e = .atLine (n + earlier.length) fault := by
  induction ls generalizing p n with
  | nil =>
    constructor
    · intro h
      cases h
    · rintro ⟨earlier, l, later, p', fault, h, -⟩
      simp at h
  | cons l ls ih =>
    rw [lines]
    cases hl : p.line orientation l with
    | error fault =>
      simp only [Except.error.injEq]
      constructor
      · rintro rfl
        exact ⟨[], l, ls, p, fault, rfl, .nil p, hl, rfl⟩
      · rintro ⟨earlier, l', later, p', fault', h, hs, hl', rfl⟩
        cases earlier with
        | nil =>
          cases h
          rw [Steps.nil_iff.1 hs, hl] at hl'
          cases hl'
          rfl
        | cons l₁ earlier =>
          cases h
          obtain ⟨p₁, hr, -⟩ := Steps.cons_iff.1 hs
          rw [line_eq_ok.2 hr] at hl
          cases hl
    | ok p₁ =>
      simp only [ih]
      constructor
      · rintro ⟨earlier, l', later, p', fault, rfl, hs, hl', rfl⟩
        refine ⟨l :: earlier, l', later, p', fault, rfl, .cons (line_eq_ok.1 hl) hs, hl', ?_⟩
        rw [List.length_cons, Nat.add_assoc, Nat.add_comm 1]
      · rintro ⟨earlier, l', later, p', fault, h, hs, hl', rfl⟩
        cases earlier with
        | nil =>
          cases h
          rw [Steps.nil_iff.1 hs, hl] at hl'
          cases hl'
        | cons l₁ earlier =>
          cases h
          obtain ⟨p₂, hr, hs⟩ := Steps.cons_iff.1 hs
          rw [line_eq_ok.2 hr] at hl
          cases hl
          refine ⟨earlier, l', later, p', fault, rfl, hs, hl', ?_⟩
          rw [List.length_cons, Nat.add_assoc, Nat.add_comm 1]

private theorem start_lines_eq_error {e : NetError} : start.lines orientation 1 ls = .error e ↔
    ∃ n fault, FaultAt orientation ls n fault ∧ e = .atLine n fault := by
  rw [lines_eq_error]
  constructor
  · rintro ⟨earlier, l, later, p, fault, hls, hs, hl, rfl⟩
    exact ⟨_, fault, ⟨earlier, l, later, p, hls, Nat.add_comm .., hs, hl⟩, rfl⟩
  · rintro ⟨n, fault, ⟨earlier, l, later, p, hls, rfl, hs, hl⟩, rfl⟩
    exact ⟨earlier, l, later, p, fault, hls, hs, hl, by rw [Nat.add_comm]⟩

/-- All lines of a text are read, or one of them is in error. -/
private theorem exists_steps_iff :
    (∃ p, Steps (Reads orientation) .start ls p) ↔ ∀ n fault, ¬ FaultAt orientation ls n fault := by
  cases h : start.lines orientation 1 ls with
  | ok p =>
    refine ⟨fun _ n fault hfault => ?_, fun _ => ⟨p, lines_eq_ok.1 h⟩⟩
    cases h.symm.trans (start_lines_eq_error.2 ⟨n, fault, hfault, rfl⟩)
  | error e =>
    obtain ⟨n, fault, hfault, -⟩ := start_lines_eq_error.1 h
    constructor
    · rintro ⟨p, hp⟩
      cases h.symm.trans (lines_eq_ok.2 hp)
    · intro hno
      exact absurd hfault (hno n fault)

/-! ### The open section -/

theorem openedBy?_eq_some : openedBy? l = some s ↔ l = s.line := by
  rw [← LineKind.ofLine_eq_header, openedBy?]
  cases LineKind.ofLine l <;> simp

/-- A header opens its section, and any other line leaves the open one. -/
private theorem opened?_of_reads (h : Reads orientation p l p') : p'.opened? = (openedBy? l).or p.opened? := by
  cases h with
  | blank hk | property hk | symbol hk | arcs hk => simp only [openedBy?, hk, Option.none_or, opened?]
  | net hk | props hk | sigma hk | states hk | closing hk => simp only [openedBy?, hk, Option.some_or, opened?]

private theorem opened?_of_steps (h : Steps (Reads orientation) p ls p') :
    p'.opened? = (ls.filterMap openedBy?).getLast?.or p.opened? := by
  induction h with
  | nil => rfl
  | @cons p p₁ p' l ls hr _ ih =>
    rw [ih, opened?_of_reads hr, ← Option.or_assoc]
    congr 1
    cases ho : openedBy? l with
    | none => rw [List.filterMap_cons_none ho, Option.or_none]
    | some s => rw [List.filterMap_cons_some ho, List.getLast?_cons, Option.or_some]

/-- Behind the end of the net no header is read. -/
private theorem closed_of_steps (h : Steps (Reads orientation) p ls p') (hp : p.opened? = some .closing) :
    p'.opened? = some .closing := by
  refine h.invariant (I := fun p => p.opened? = some .closing) (fun p l p' hp hr => ?_) hp
  cases hr with
  | blank => exact hp
  | closing => rfl
  | net | props | property | sigma | symbol | states | arcs => cases hp

/-- The end of the net is reached if its line is among those that are read. -/
private theorem opened?_eq_closing_iff (h : Steps (Reads orientation) .start ls p) :
    p.opened? = some .closing ↔ Section.closing.line ∈ ls := by
  constructor
  · intro hp
    rw [opened?_of_steps h, opened?, Option.or_none] at hp
    obtain ⟨l, hl, ho⟩ := List.mem_filterMap.1 (List.mem_of_getLast? hp)
    rwa [← openedBy?_eq_some.1 ho]
  · intro hmem
    obtain ⟨earlier, later, rfl⟩ := List.append_of_mem hmem
    obtain ⟨p₁, -, h⟩ := Steps.append_iff.1 h
    obtain ⟨p₂, hr, h⟩ := Steps.cons_iff.1 h
    refine closed_of_steps h ?_
    rw [opened?_of_reads hr, openedBy?_eq_some.2 rfl, Option.some_or]

private theorem finish_eq_truncated : p.finish orientation = .error (.truncated s) ↔
    p.opened? ≠ some .closing ∧ s = p.opened?.getD .net := by
  cases p <;> simp [finish, opened?, eq_comm]

theorem finish_eq_error {e : NetError} (h : p.finish orientation = .error e) : ∃ s, e = .truncated s := by
  cases p <;> cases h <;> exact ⟨_, rfl⟩

end Progress

/-! ### A text that is not read -/

variable {orientation : Orientation} {text : String} {n : Nat} {fault : NetFault} {s : Section}

theorem ofText_eq_error {e : NetError} : ofText text orientation = .error e ↔
    (∃ n fault, FaultAt orientation (Text.lines text) n fault ∧ e = .atLine n fault) ∨
      ∃ p, Steps (Reads orientation) .start (Text.lines text) p ∧ p.finish orientation = .error e := by
  rw [← start_lines_eq_error, ofText]
  cases h : start.lines orientation 1 (Text.lines text) with
  | error e' =>
    have hno : ¬ ∃ p, Steps (Reads orientation) .start (Text.lines text) p := by
      rintro ⟨p, hp⟩
      cases h.symm.trans (lines_eq_ok.2 hp)
    constructor
    · intro he
      cases he
      exact .inl rfl
    · rintro (he | ⟨p, hp, -⟩)
      · cases he
        rfl
      · exact absurd ⟨p, hp⟩ hno
  | ok p =>
    constructor
    · exact fun he => .inr ⟨p, lines_eq_ok.1 h, he⟩
    · rintro (he | ⟨p', hp', he⟩)
      · cases he
      · cases h.symm.trans (lines_eq_ok.2 hp')
        exact he

theorem ofText_eq_atLine : ofText text orientation = .error (.atLine n fault) ↔
    FaultAt orientation (Text.lines text) n fault := by
  rw [ofText_eq_error]
  constructor
  · rintro (⟨n', fault', hfault, he⟩ | ⟨p, -, he⟩)
    · cases he
      exact hfault
    · obtain ⟨s, hs⟩ := finish_eq_error he
      cases hs
  · exact fun hfault => .inl ⟨n, fault, hfault, rfl⟩

theorem ofText_eq_truncated : ofText text orientation = .error (.truncated s) ↔
    (∀ n fault, ¬ FaultAt orientation (Text.lines text) n fault) ∧ Section.closing.line ∉ Text.lines text ∧
      s = openSection (Text.lines text) := by
  have hopened : ∀ p, Steps (Reads orientation) .start (Text.lines text) p →
      (p.finish orientation = .error (.truncated s) ↔
        Section.closing.line ∉ Text.lines text ∧ s = openSection (Text.lines text)) := by
    intro p hp
    rw [finish_eq_truncated, ne_eq, opened?_eq_closing_iff hp, opened?_of_steps hp, opened?, Option.or_none,
      openSection]
  rw [ofText_eq_error, ← exists_steps_iff]
  constructor
  · rintro (⟨n, fault, -, he⟩ | ⟨p, hp, he⟩)
    · cases he
    · exact ⟨⟨p, hp⟩, (hopened p hp).1 he⟩
  · rintro ⟨⟨p, hp⟩, he⟩
    exact .inr ⟨p, hp, (hopened p hp).2 he⟩

/-- A text in which no line is in error is read or breaks off. -/
private theorem ofText_of_steps {p : Progress} (h : Steps (Reads orientation) .start (Text.lines text) p) :
    (∃ net, ofText text orientation = .ok net) ∨ ∃ s, ofText text orientation = .error (.truncated s) := by
  cases hof : ofText text orientation with
  | ok net => exact .inl ⟨net, rfl⟩
  | error e =>
    cases e with
    | truncated s => exact .inr ⟨s, rfl⟩
    | atLine n fault => exact absurd (ofText_eq_atLine.1 hof) (exists_steps_iff.1 ⟨p, h⟩ n fault)

/-- The lines up to the one that is in error decide. -/
private theorem FaultAt.of_take {lines lines' : List String} (h : FaultAt orientation lines n fault)
    (hsame : lines'.take n = lines.take n) : FaultAt orientation lines' n fault := by
  obtain ⟨earlier, l, later, p, rfl, rfl, hs, hl⟩ := h
  have hcut : (earlier ++ l :: later).take (earlier.length + 1) = earlier ++ [l] := by
    rw [List.take_length_add_append, List.take_succ_cons, List.take_zero]
  refine ⟨earlier, l, lines'.drop (earlier.length + 1), p, ?_, rfl, hs, hl⟩
  rw [List.append_cons, ← hcut, ← hsame, List.take_append_drop]

/-- An error names one of the lines, no text with the same lines up to this one is read otherwise, and cut off in front
of it the text is read or breaks off.  A text breaks off exactly if no line is in error and the end of the net is not
reached, and then inside the section that is open. -/
theorem ofText_first_fault (text : String) (orientation : Orientation) :
    (∀ n fault, ofText text orientation = .error (.atLine n fault) →
      (1 ≤ n ∧ n ≤ (Text.lines text).length) ∧
      (∀ text', (Text.lines text').take n = (Text.lines text).take n →
        ofText text' orientation = .error (.atLine n fault)) ∧
      ((∃ net, ofText (Text.before n text) orientation = .ok net) ∨
        ∃ s, ofText (Text.before n text) orientation = .error (.truncated s))) ∧
    ∀ s, ofText text orientation = .error (.truncated s) ↔
      (∀ n fault, ¬ FaultAt orientation (Text.lines text) n fault) ∧ Section.closing.line ∉ Text.lines text ∧
        s = openSection (Text.lines text) := by
  refine ⟨fun n fault h => ?_, fun s => ofText_eq_truncated⟩
  have hfault := ofText_eq_atLine.1 h
  obtain ⟨earlier, l, later, p, hlines, rfl, hs, hl⟩ := id hfault
  refine ⟨?_, fun text' hsame => ofText_eq_atLine.2 (hfault.of_take hsame), ?_⟩
  · rw [hlines, List.length_append, List.length_cons]
    omega
  · have hbefore : Text.lines (Text.before (earlier.length + 1) text) = earlier := by
      rw [Text.lines_before, hlines, Nat.add_sub_cancel, List.take_left]
    exact ofText_of_steps (hbefore.symm ▸ hs)

/-- A net that gives one code to two symbols. -/
def twiceDefined : String :=
  "##foma-net 1.0##\n##props##\n1 1 1 1 1 1 1 1 1 1 1 1\n##sigma##\n3 a\n3 b\n##states##\n##end##\n"

/-- Whatever follows the second definition, the text is refused there, and in front of it the alphabet is open. -/
theorem ofText_twiceDefined : ofText twiceDefined .normal = .error (.atLine 6 (.duplicateSymbol 3)) ∧
    (∀ text', (Text.lines text').take 6 = (Text.lines twiceDefined).take 6 →
      ofText text' .normal = .error (.atLine 6 (.duplicateSymbol 3))) ∧
    ofText (Text.before 6 twiceDefined) .normal = .error (.truncated .sigma) := by
  have h : ofText twiceDefined .normal = .error (.atLine 6 (.duplicateSymbol 3)) := by decide +kernel
  have hfirst := (ofText_first_fault twiceDefined .normal).1 6 _ h
  exact ⟨h, hfirst.2.1, by decide +kernel⟩

end LexicalTransducer.Net
