import LexicalTransducer.Net.Reader
import LexicalTransducer.Proofs.Outcome
import Mathlib.Data.List.Sort

/-!
# Reading a net inverted

A net that is read inverted is the net that is read as it stands, with the labels of every arc exchanged and the
arcs put in order again, and a text with an error has the same error both ways (`ofText_invert`).  Every step of the
reading commutes with the exchange.
-/

namespace LexicalTransducer

namespace Arc

private theorem inverted_inverted (a : Arc) : a.inverted.inverted = a := rfl

private theorem inverted_injective : Function.Injective inverted :=
  Function.LeftInverse.injective inverted_inverted

/-- The arcs of a list in ascending order. -/
def sort (arcs : List Arc) : List Arc :=
  arcs.mergeSort fun a b => (compare a b).isLE

theorem sort_perm (arcs : List Arc) : (sort arcs).Perm arcs :=
  List.mergeSort_perm _ _

theorem pairwise_sort (arcs : List Arc) : (sort arcs).Pairwise fun a b => (compare a b).isLE := by
  have htrans : ∀ a b c : Arc, (compare a b).isLE → (compare b c).isLE → (compare a c).isLE :=
    fun _ _ _ => Std.TransOrd.isLE_trans
  have htotal : ∀ a b : Arc, ((compare a b).isLE || (compare b a).isLE) = true := by
    intro a b
    rw [Std.OrientedOrd.eq_swap]
    cases compare b a <;> rfl
  exact List.pairwise_mergeSort htrans htotal arcs

private theorem eq_of_isLE {a b : Arc} (h : (compare a b).isLE) (h' : (compare b a).isLE) : a = b :=
  Std.LawfulEqOrd.compare_eq_iff_eq.1 (Std.OrientedCmp.isLE_antisymm h h')

theorem nodup_of_ascending {arcs : List Arc} (h : arcs.Pairwise fun a b => compare a b = .lt) : arcs.Nodup :=
  h.imp fun hlt heq => by
    rw [heq, Std.compare_self] at hlt
    cases hlt

/-- A set holds its arcs in ascending order. -/
private theorem toList_ofList {arcs : List Arc} (h : arcs.Nodup) : (Std.ExtTreeSet.ofList arcs).toList = sort arcs := by
  have hasc := Std.ExtTreeSet.ordered_toList (t := Std.ExtTreeSet.ofList arcs)
  refine List.Perm.eq_of_pairwise (fun a b _ _ => eq_of_isLE) (hasc.imp fun hlt => ?_) (pairwise_sort arcs) ?_
  · rw [hlt]
    rfl
  · refine ((List.perm_ext_iff_of_nodup (nodup_of_ascending hasc) h).2 fun a => ?_).trans (sort_perm arcs).symm
    rw [Std.ExtTreeSet.mem_toList, Std.ExtTreeSet.mem_ofList, List.contains_iff_mem]

end Arc

/-! ### The states section -/

namespace StatesSection

/-- The section with the labels of every arc exchanged. -/
def inverted (s : StatesSection) : StatesSection :=
  { s with arcs := .ofList (s.arcs.toList.map Arc.inverted) }

private theorem mem_arcs_inverted {s : StatesSection} {a : Arc} : a ∈ s.inverted.arcs ↔ a.inverted ∈ s.arcs := by
  unfold inverted
  rw [Std.ExtTreeSet.mem_ofList, List.contains_iff_mem, List.mem_map]
  constructor
  · rintro ⟨b, hb, rfl⟩
    exact Std.ExtTreeSet.mem_toList.1 hb
  · intro h
    exact ⟨a.inverted, Std.ExtTreeSet.mem_toList.2 h, a.inverted_inverted⟩

private theorem inverted_addArc (s : StatesSection) (a : Arc) :
    (s.addArc .normal a).inverted = s.inverted.addArc .invert a := by
  have harcs : (s.addArc .normal a).inverted.arcs = (s.inverted.addArc .invert a).arcs := by
    apply Std.ExtTreeSet.ext_mem
    intro b
    rw [mem_arcs_inverted]
    show b.inverted ∈ s.arcs.insert a ↔ b ∈ s.inverted.arcs.insert a.inverted
    rw [Std.ExtTreeSet.mem_insert, Std.ExtTreeSet.mem_insert, mem_arcs_inverted, Std.LawfulEqOrd.compare_eq_iff_eq,
      Std.LawfulEqOrd.compare_eq_iff_eq]
    exact or_congr_left (Arc.inverted_injective.eq_iff' b.inverted_inverted).symm
  -- the exchange leaves everything else of a section alone
  calc (s.addArc .normal a).inverted
      = { s.inverted.addArc .invert a with arcs := (s.addArc .normal a).inverted.arcs } := rfl
    _ = s.inverted.addArc .invert a := by rw [harcs]

/-- A line adds the exchanged arc to the exchanged section, or it has the same fault there. -/
private theorem add_inverted (b : SymbolTable.Builder) (s : StatesSection) (l : StateLine) :
    s.inverted.add .invert b l = (s.add .normal b l).map inverted := by
  cases l with
  | sentinel => rfl
  | explicit source upper lower target final =>
    simp only [add, map_bind]
    refine bind_congr fun q => ?_
    split
    · rfl
    · rw [map_bind]
      exact bind_congr fun a => congrArg Except.ok ((s.addSource q final).inverted_addArc a).symm
  | implied upper lower target =>
    have hlast : s.inverted.lastSource = s.lastSource := rfl
    cases hs : s.lastSource with
    | none => simp only [add, hlast, hs, Except.map]
    | some source =>
      simp only [add, hlast, hs, map_bind]
      exact bind_congr fun a => congrArg Except.ok (s.inverted_addArc a).symm

end StatesSection

/-! ### The whole text -/

namespace Net

/-- The net with the labels of every arc exchanged. -/
def inverted (n : Net) : Net :=
  { n with
    arcs := Arc.sort (n.arcs.map Arc.inverted)
    orientation := .invert }

private theorem inverted_ofSections (properties : Properties) (symbols : SymbolTable.Builder) (states : StatesSection) :
    (ofSections .normal properties symbols states).inverted =
      ofSections .invert properties symbols states.inverted := by
  have hnodup : (states.arcs.toList.map Arc.inverted).Nodup :=
    (Arc.nodup_of_ascending Std.ExtTreeSet.ordered_toList).map Arc.inverted_injective
  have harcs : states.inverted.arcs.toList = Arc.sort (states.arcs.toList.map Arc.inverted) :=
    Arc.toList_ofList hnodup
  simp only [inverted, ofSections, harcs]
  rfl

namespace Progress

/-- As much of a reading, with the labels of every arc exchanged. -/
def inverted : Progress → Progress
  | states ps b s => states ps b s.inverted
  | closed ps b s => closed ps b s.inverted
  | p => p

private theorem enter_inverted (p : Progress) (opened : Section) :
    p.inverted.enter opened = (p.enter opened).map inverted := by
  cases p with
  | props read => cases read <;> cases opened <;> rfl
  | start | header | sigma | states | closed => cases opened <;> rfl

private theorem content_inverted (p : Progress) (l : String) :
    p.inverted.content .invert l = (p.content .normal l).map inverted := by
  cases p with
  | start | header | closed => rfl
  | props read =>
    cases read with
    | none =>
      simp only [content, inverted, map_bind]
      rfl
    | some ps => rfl
  | sigma ps b =>
    simp only [content, inverted, map_bind]
    refine bind_congr fun entry => ?_
    rcases b.define entry.1 entry.2 with ⟨_ | _, b'⟩ <;> rfl
  | states ps b s =>
    simp only [content, inverted, map_bind]
    refine bind_congr fun line => ?_
    rw [StatesSection.add_inverted]
    cases s.add .normal b line <;> rfl

private theorem line_inverted (p : Progress) (l : String) :
    p.inverted.line .invert l = (p.line .normal l).map inverted := by
  unfold line
  split
  · exact p.enter_inverted _
  · rfl
  · split
    · rfl
    · exact p.content_inverted l

private theorem lines_inverted (p : Progress) (n : Nat) (ls : List String) :
    p.inverted.lines .invert n ls = (p.lines .normal n ls).map inverted := by
  induction ls generalizing p n with
  | nil => rfl
  | cons l ls ih =>
    rw [lines, lines, line_inverted]
    cases p.line .normal l with
    | error e => rfl
    | ok p' => exact ih p' (n + 1)

private theorem finish_inverted (p : Progress) : p.inverted.finish .invert = (p.finish .normal).map Net.inverted := by
  cases p with
  | start | header | props | sigma | states => rfl
  | closed ps b s => exact congrArg Except.ok (inverted_ofSections ps b s).symm

end Progress

/-- To read a text inverted is to read it as it stands and to exchange the labels of every arc. -/
theorem ofText_invert (text : String) : ofText text .invert = (ofText text .normal).map inverted := by
  have hlines := Progress.start.lines_inverted 1 (Text.lines text)
  replace hlines : Progress.start.lines .invert 1 (Text.lines text) = _ := hlines
  unfold ofText
  rw [hlines]
  cases Progress.start.lines .normal 1 (Text.lines text) with
  | error e => rfl
  | ok p => exact p.finish_inverted

end Net

end LexicalTransducer
