import LexicalTransducer.Proofs.Net.Linked
import LexicalTransducer.Proofs.Transducer.Inversion
import Mathlib.Order.Bounds.Basic

/-!
# Well-formed transducers

A transducer that has been read is well formed (`isWellFormed_of_ofText`): its arcs join its states by labels with a
symbol, they stand in ascending order, and the index gives each state the arcs that leave it.  So the arcs of the
states, one state after the other, are all arcs again (`flatMap_outgoing`).
-/

namespace LexicalTransducer

namespace Arc

private theorem compare_of_source_lt {a b : Arc} (h : a.source < b.source) : compare a b = .lt := by
  rw [compare_def, Nat.compare_eq_lt.2 h]
  rfl

/-- Two ascending rows with the same arcs are the same. -/
private theorem eq_of_ascending {arcs arcs' : List Arc} (h : arcs.Pairwise fun a b => compare a b = .lt)
    (h' : arcs'.Pairwise fun a b => compare a b = .lt) (hmem : ∀ a, a ∈ arcs ↔ a ∈ arcs') : arcs = arcs' := by
  have hperm : arcs.Perm arcs' :=
    (List.perm_ext_iff_of_nodup (nodup_of_ascending h) (nodup_of_ascending h')).2 hmem
  refine hperm.eq_of_pairwise (fun a b _ _ hlt hgt => ?_) h h'
  exact absurd hgt (Std.OrientedCmp.not_lt_of_lt hlt)

end Arc

namespace Graph

variable {arcs : List Arc} {accepting : StateSet}

theorem outgoing_ofArcs (h : arcs.Pairwise fun a b => compare a b = .lt) (q : Nat) :
    (ofArcs arcs accepting).outgoing q = arcs.filter fun a => a.source = q :=
  outgoing_eq_filter (g := ofArcs arcs accepting) (h.imp fun hlt => Arc.source_le_of_isLE (by rw [hlt]; rfl)) q

/-- The arcs of the states, one state after the other, are the whole row. -/
theorem flatMap_outgoing (h : arcs.Pairwise fun a b => compare a b = .lt) {states : List Nat}
    (hstates : states.Pairwise (· < ·)) (hsource : ∀ a ∈ arcs, a.source ∈ states) :
    states.flatMap (ofArcs arcs accepting).outgoing = arcs := by
  have hout : ∀ q, ∀ a ∈ (ofArcs arcs accepting).outgoing q, a ∈ arcs ∧ a.source = q := by
    intro q a ha
    rw [outgoing_ofArcs h, List.mem_filter] at ha
    simpa using ha
  refine Arc.eq_of_ascending (List.pairwise_flatMap.2 ⟨fun q _ => ?_, hstates.imp ?_⟩) h fun a => ?_
  · rw [outgoing_ofArcs h]
    exact h.filter _
  · intro q q' hlt a ha a' ha'
    apply Arc.compare_of_source_lt
    rw [(hout q a ha).2, (hout q' a' ha').2]
    exact hlt
  · rw [List.mem_flatMap]
    constructor
    · rintro ⟨q, -, ha⟩
      exact (hout q a ha).1
    · intro ha
      refine ⟨a.source, hsource a ha, ?_⟩
      rw [outgoing_ofArcs h, List.mem_filter]
      exact ⟨ha, by simp⟩

end Graph

namespace Transducer

/-- What a lookup may rely on. -/
structure IsWellFormed (t : Transducer) : Prop where
  joins : ∀ a ∈ t.graph.arcs.toList, a.Joins t.states t.symbols
  ascending : t.graph.arcs.toList.Pairwise fun a b => compare a b = .lt
  nodup : t.graph.arcs.toList.Nodup
  accepting : ∀ q ∈ t.graph.accepting, q ∈ t.states
  initial : ∀ q, t.initial? = some q ↔ IsLeast {p | p ∈ t.states} q
  initial_none : t.initial? = none ↔ ∀ q, q ∉ t.states
  arcsFrom : ∀ q, (t.graph.arcsFrom q).toList = t.graph.arcs.toList.filter fun a => a.source = q
  flatMap_arcsFrom : t.states.toList.flatMap (fun q => (t.graph.arcsFrom q).toList) = t.graph.arcs.toList

theorem initial?_eq_some {t : Transducer} {q : Nat} : t.initial? = some q ↔ IsLeast {p | p ∈ t.states} q := by
  rw [initial?, Std.ExtTreeSet.min?_eq_some_iff_mem_and_forall]
  simp only [IsLeast, lowerBounds, Set.mem_ofPred_eq, Nat.isLE_compare]

theorem initial?_eq_none {t : Transducer} : t.initial? = none ↔ ∀ q, q ∉ t.states := by
  rw [initial?, Std.ExtTreeSet.min?_eq_none_iff, Std.ExtTreeSet.eq_empty_iff_forall_not_mem]

/-- A transducer that has been read is well formed, and no accepting state is among the intermediate ones. -/
theorem isWellFormed_of_ofText {text : String} {orientation : Orientation} {t : Transducer}
    (h : ofText text orientation = .ok t) : t.IsWellFormed ∧
    ∃ n, Net.ofText text orientation = .ok n ∧ t = ofNet n ∧ ∀ q ∈ n.intermediate, q ∉ t.graph.accepting := by
  obtain ⟨n, hn, rfl⟩ := map_eq_ok.1 h
  have hlinked := Net.isLinked_of_ofText hn
  have hasc := Net.ascending_of_ofText hn
  have hstates : n.states.toList.Pairwise (· < ·) :=
    Std.ExtTreeSet.ordered_toList.imp fun hlt => Nat.compare_eq_lt.1 hlt
  refine ⟨?_, n, hn, rfl, hlinked.intermediate⟩
  exact {
    joins := hlinked.joins
    ascending := hasc
    nodup := Arc.nodup_of_ascending hasc
    accepting := hlinked.accepting
    initial := fun q => initial?_eq_some
    initial_none := initial?_eq_none
    arcsFrom := Graph.outgoing_ofArcs hasc
    flatMap_arcsFrom :=
      Graph.flatMap_outgoing hasc hstates fun a ha => Std.ExtTreeSet.mem_toList.2 (hlinked.joins a ha).source
  }

/-- The fork, in which one line leaves its source out and one gives no arc, and what the index finds in it. -/
theorem isWellFormed_fork : ofText (Net.forkText Net.forkStates) .normal = .ok (ofNet Net.fork) ∧
    (ofNet Net.fork).IsWellFormed ∧ (ofNet Net.fork).initial? = some 0 ∧
    (ofNet Net.fork).graph.arcsFrom 0 = #[⟨0, 0, 5, 1⟩, ⟨0, 3, 4, 2⟩] ∧
    (ofNet Net.fork).graph.arcsFrom 2 = #[] := by
  have h : ofText (Net.forkText Net.forkStates) .normal = .ok (ofNet Net.fork) :=
    map_eq_ok.2 ⟨_, Net.ofText_fork, rfl⟩
  have hinitial : (ofNet Net.fork).initial? = some 0 := by
    rw [initial?, ← Std.ExtTreeSet.head?_toList]
    decide +kernel
  exact ⟨h, (isWellFormed_of_ofText h).1, hinitial, by decide +kernel, by decide +kernel⟩

end Transducer

end LexicalTransducer
