import LexicalTransducer.Proofs.Net.Inversion
import LexicalTransducer.Proofs.Net.Rewording
import LexicalTransducer.Proofs.Search.Correspondence
import LexicalTransducer.Proofs.Transducer.RoundTrip

/-!
# Lookups in an inverted net

An arc with its labels exchanged does on one tape what the arc does on the other (`tryArc_exchanged`).  So analysis
in a net that is read inverted is generation in the net that is read as it stands, and the other way round, up to
the order of the results (`analyze_inverted`).
-/

namespace LexicalTransducer

/-! ### The search on the other tape -/

namespace Query

/-- The search on the other tape of another graph. -/
def exchanged (q : Query) (g : Graph) : Query :=
  { q with graph := g, tape := q.tape.opposite }

theorem tryArc_exchanged (q : Query) (g : Graph) (b : Branch) (a : Arc) :
    (q.exchanged g).tryArc b a.inverted = q.tryArc b a := by
  obtain ⟨graph, symbols, input, tape, limits⟩ := q
  cases tape <;> rfl

private theorem sameResults_exchanged (q : Query) {g : Graph} (haccepting : g.accepting = q.graph.accepting)
    (hperm : ∀ state, ((q.graph.outgoing state).map Arc.inverted).Perm (g.outgoing state)) (initial : Option Nat) :
    SameResults (q.items (q.start initial)) ((q.exchanged g).items ((q.exchanged g).start initial)) :=
  sameResults_of_tryArc q (q.exchanged g) Arc.inverted rfl rfl haccepting hperm (q.tryArc_exchanged g) initial

end Query

/-! ### The arcs of an inverted net -/

namespace Arc

theorem source_le_of_isLE {a b : Arc} (h : (compare a b).isLE) : a.source ≤ b.source := by
  rw [compare_def] at h
  by_contra hlt
  rw [Nat.compare_eq_gt.2 (Nat.lt_of_not_le hlt)] at h
  cases h

end Arc

namespace Net

variable {n : Net}

/-- The arcs of a net are distinct and in order. -/
theorem ascending_of_ofText {text : String} {orientation : Orientation} (h : ofText text orientation = .ok n) :
    n.arcs.Pairwise fun a b => compare a b = .lt := by
  obtain ⟨ps, b, s, -, rfl⟩ := ofText_eq_ok.1 h
  exact Std.ExtTreeSet.ordered_toList

private theorem outgoing_inverted (hsorted : SortedBySource n.arcs) (state : Nat) :
    (((Graph.ofArcs n.arcs n.accepting).outgoing state).map Arc.inverted).Perm
      ((Graph.ofArcs n.inverted.arcs n.inverted.accepting).outgoing state) := by
  have hsorted' : SortedBySource n.inverted.arcs := (Arc.pairwise_sort _).imp Arc.source_le_of_isLE
  rw [Graph.outgoing_eq_filter (g := .ofArcs n.arcs n.accepting) hsorted,
    Graph.outgoing_eq_filter (g := .ofArcs n.inverted.arcs n.inverted.accepting) hsorted']
  show ((n.arcs.filter _).map Arc.inverted).Perm ((Arc.sort (n.arcs.map Arc.inverted)).filter _)
  have hfilter : (n.arcs.map Arc.inverted).filter (fun a => a.source = state) =
      (n.arcs.filter fun a => a.source = state).map Arc.inverted := by
    rw [List.filter_map]
    rfl
  rw [← hfilter]
  exact (Arc.sort_perm _).symm.filter _

end Net

namespace Transducer

/-- A lookup on the other tape of the inverted net. -/
private theorem sameResults_inverted {α β : Type} {n : Net} (hsorted : SortedBySource n.arcs) (limits : Limits)
    (tape : Tape) (render : List Nat → α) (render' : List Nat → β) (text : String) :
    SameResults (((ofNet n).withLimits limits).lookup tape render text).outputs
      (((ofNet n.inverted).withLimits limits).lookup tape.opposite render' text).outputs := by
  cases hs : n.symbols.split text with
  | error e =>
    rw [outputs_lookup_of_error (t := (ofNet n).withLimits limits) hs,
      outputs_lookup_of_error (t := (ofNet n.inverted).withLimits limits) hs]
    exact .refl []
  | ok ids =>
    rw [outputs_lookup (t := (ofNet n).withLimits limits) hs,
      outputs_lookup (t := (ofNet n.inverted).withLimits limits) hs]
    exact Query.sameResults_exchanged (g := (ofNet n.inverted).graph) _ rfl (Net.outgoing_inverted hsorted) _

/-- A text that is read inverted gives the inverted net or the same error, and to analyze with it is to generate with
the text as it stands, and the other way round. -/
theorem analyze_inverted (text : String) :
    Net.ofText text .invert = (Net.ofText text .normal).map Net.inverted ∧
    ∀ t t', ofText text .normal = .ok t → ofText text .invert = .ok t' → ∀ limits input,
      SameResults ((t.withLimits limits).generate input).outputs ((t'.withLimits limits).analyze input).outputs ∧
      SameResults ((t.withLimits limits).analyze input).outputs ((t'.withLimits limits).generate input).outputs := by
  refine ⟨Net.ofText_invert text, ?_⟩
  intro t t' h h' limits input
  obtain ⟨n, hn, rfl⟩ := map_eq_ok.1 h
  have hinverted : ofText text .invert = .ok (ofNet n.inverted) := by
    rw [ofText, Net.ofText_invert, hn]
    rfl
  cases hinverted.symm.trans h'
  have hsorted : SortedBySource n.arcs := (Net.ascending_of_ofText hn).imp fun hlt => by
    apply Arc.source_le_of_isLE
    rw [hlt]
    rfl
  exact ⟨sameResults_inverted hsorted limits .upper _ _ input, sameResults_inverted hsorted limits .lower _ _ input⟩

/-- What the fork is read as inverted: the arcs of its first state change their places. -/
def forkInverted : Net :=
  { Net.fork with
    arcs := [⟨0, 4, 3, 2⟩, ⟨0, 5, 0, 1⟩, ⟨1, 3, 3, 2⟩]
    orientation := .invert }

/-- The results of the fork from `a`, and those of the inverted one in another order. -/
theorem analyze_forkInverted :
    SameResults (((ofNet Net.fork).withLimits { maxDepth := 5 }).generate "a").outputs
      (((ofNet forkInverted).withLimits { maxDepth := 5 }).analyze "a").outputs ∧
    (((ofNet Net.fork).withLimits { maxDepth := 5 }).generate "a").outputs = [.ok [5, 3], .ok [4]] ∧
    (((ofNet forkInverted).withLimits { maxDepth := 5 }).analyze "a").outputs = [.ok [4], .ok [5, 3]] := by
  have h : ofText (Net.forkText Net.forkStates) .normal = .ok (ofNet Net.fork) :=
    map_eq_ok.2 ⟨_, Net.ofText_fork, rfl⟩
  have hinverted : ofText (Net.forkText Net.forkStates) .invert = .ok (ofNet forkInverted) :=
    map_eq_ok.2 ⟨_, toOption_eq_some.1 (by decide +kernel), rfl⟩
  have hinitial : (ofNet Net.fork).initial? = some 0 := by
    rw [initial?, ← Std.ExtTreeSet.head?_toList]
    decide +kernel
  have hsplit : Net.fork.symbols.split "a" = .ok [3] := by
    have hchars : "a".toList = ['a'] := by decide +kernel
    have hlong : Net.fork.symbols.longestText = 1 := by decide +kernel
    have ha : Net.fork.symbols.longestMatch? ['a'] 1 = some (3, 1) := by decide +kernel
    simp [SymbolTable.split, hchars, hlong, SymbolTable.splitFrom, ha, Except.map]
  refine ⟨((analyze_inverted _).2 _ _ h hinverted { maxDepth := 5 } "a").1, ?_, ?_⟩
  · exact outputs_of_itemsWithin (n := 30) hinitial hsplit (by decide +kernel)
  · exact outputs_of_itemsWithin (n := 30) hinitial hsplit (by decide +kernel)

end Transducer

end LexicalTransducer
