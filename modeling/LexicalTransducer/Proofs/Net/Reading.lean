import LexicalTransducer.Net.Reader
import LexicalTransducer.Proofs.Outcome
import LexicalTransducer.Proofs.Steps

/-!
# What reading a line can do

One line takes the reading of a net one step on (`Reads`), and the whole text takes it from the start to the end of
a net (`ofText_eq_ok`).  What every line keeps therefore holds of every net that is read.
-/

namespace LexicalTransducer

namespace Net.Progress

/-- A line that is read, with how far the reading has come before it and behind it. -/
inductive Reads (orientation : Orientation) : Progress → String → Progress → Prop
  | blank {p : Progress} {l : String} (hk : LineKind.ofLine l = .content) (hb : Text.isBlankLine l = true) :
      Reads orientation p l p
  | net {l : String} (hk : LineKind.ofLine l = .header .net) : Reads orientation start l header
  | props {l : String} (hk : LineKind.ofLine l = .header .props) : Reads orientation header l (props none)
  | property {l : String} {ps : Properties} (hk : LineKind.ofLine l = .content) (hb : Text.isBlankLine l = false)
      (hl : Properties.ofLine l = .ok ps) : Reads orientation (props none) l (props (some ps))
  | sigma {l : String} {ps : Properties} (hk : LineKind.ofLine l = .header .sigma) :
      Reads orientation (props (some ps)) l (sigma ps {})
  | symbol {l : String} {ps : Properties} {b b' : SymbolTable.Builder} {code : Int} {text : String}
      (hk : LineKind.ofLine l = .content) (hb : Text.isBlankLine l = false) (hl : sigmaLine l = .ok (code, text))
      (hd : b.define code text = (.ok (), b')) : Reads orientation (sigma ps b) l (sigma ps b')
  | states {l : String} {ps : Properties} {b : SymbolTable.Builder} (hk : LineKind.ofLine l = .header .states) :
      Reads orientation (sigma ps b) l (states ps b {})
  | arcs {l : String} {ps : Properties} {b : SymbolTable.Builder} {s s' : StatesSection} {line : StateLine}
      (hk : LineKind.ofLine l = .content) (hb : Text.isBlankLine l = false) (hl : StateLine.ofLine l = .ok line)
      (ha : s.add orientation b line = .ok s') : Reads orientation (states ps b s) l (states ps b s')
  | closing {l : String} {ps : Properties} {b : SymbolTable.Builder} {s : StatesSection}
      (hk : LineKind.ofLine l = .header .closing) : Reads orientation (states ps b s) l (closed ps b s)

variable {orientation : Orientation} {p p' : Progress} {l : String}

private theorem reads_of_enter {opened : Section} (hk : LineKind.ofLine l = .header opened)
    (h : p.enter opened = .ok p') : Reads orientation p l p' := by
  unfold enter at h
  split at h <;> cases h
  · exact .net hk
  · exact .props hk
  · exact .sigma hk
  · exact .states hk
  · exact .closing hk

private theorem reads_of_content (hk : LineKind.ofLine l = .content) (hb : Text.isBlankLine l = false)
    (h : p.content orientation l = .ok p') : Reads orientation p l p' := by
  unfold content at h
  split at h
  · cases h
  · cases h
  · obtain ⟨ps, hl, hp⟩ := bind_eq_ok.1 h
    cases hp
    exact .property hk hb hl
  · cases h
  · obtain ⟨⟨code, text⟩, hl, hd⟩ := bind_eq_ok.1 h
    simp only [] at hd
    split at hd
    · rename_i b' hdef
      cases hd
      exact .symbol hk hb hl hdef
    · cases hd
  · obtain ⟨line, hl, h⟩ := bind_eq_ok.1 h
    obtain ⟨s', ha, hp⟩ := bind_eq_ok.1 h
    cases hp
    exact .arcs hk hb hl ha
  · cases h

theorem line_eq_ok : p.line orientation l = .ok p' ↔ Reads orientation p l p' := by
  constructor
  · intro h
    unfold line at h
    split at h
    · rename_i opened hk
      exact reads_of_enter hk h
    · cases h
    · rename_i hk
      split at h
      · rename_i hb
        cases h
        exact .blank hk hb
      · rename_i hb
        exact reads_of_content hk (Bool.not_eq_true _ ▸ hb) h
  · intro h
    unfold line
    cases h with
    | blank hk hb => simp only [hk, hb, ↓reduceIte]
    | net hk | props hk | sigma hk | states hk | closing hk => simp only [hk, enter]
    | property hk hb hl => simp [hk, hb, content, hl, bind, Except.bind, pure, Except.pure]
    | symbol hk hb hl hd => simp [hk, hb, content, hl, hd, bind, Except.bind, pure, Except.pure]
    | arcs hk hb hl ha => simp [hk, hb, content, hl, ha, bind, Except.bind, pure, Except.pure]

/-! ### A whole text -/

theorem lines_eq_ok {n : Nat} {ls : List String} :
    p.lines orientation n ls = .ok p' ↔ Steps (Reads orientation) p ls p' := by
  induction ls generalizing p n with
  | nil =>
    rw [lines, Steps.nil_iff, Except.ok.injEq, eq_comm]
  | cons l ls ih =>
    rw [lines, Steps.cons_iff]
    cases hl : p.line orientation l with
    | error e =>
      simp only [reduceCtorEq, false_iff, not_exists, not_and]
      intro y hy
      rw [line_eq_ok.2 hy] at hl
      cases hl
    | ok p₁ =>
      simp only [ih]
      constructor
      · intro h
        exact ⟨p₁, line_eq_ok.1 hl, h⟩
      · rintro ⟨y, hy, h⟩
        rw [line_eq_ok.2 hy] at hl
        cases hl
        exact h

end Net.Progress

namespace Net

open Progress

variable {orientation : Orientation} {text : String}

/-- A text is read if its lines lead to the end of a net. -/
theorem ofText_eq_ok {net : Net} : ofText text orientation = .ok net ↔ ∃ ps b s,
    Steps (Reads orientation) .start (Text.lines text) (.closed ps b s) ∧
      net = ofSections orientation ps b s := by
  unfold ofText
  rw [bind_eq_ok]
  constructor
  · rintro ⟨p, hp, h⟩
    cases p with
    | closed ps b s =>
      cases h
      exact ⟨ps, b, s, lines_eq_ok.1 hp, rfl⟩
    | start | header | props | sigma | states => cases h
  · rintro ⟨ps, b, s, hs, rfl⟩
    exact ⟨.closed ps b s, lines_eq_ok.2 hs, rfl⟩

end Net

end LexicalTransducer
