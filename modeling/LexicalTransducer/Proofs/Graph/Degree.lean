import LexicalTransducer.Proofs.Graph.Stretch
import LexicalTransducer.Proofs.Lists
import Mathlib.Order.Bounds.Basic

/-!
# The out-degree of a graph

The index never points behind the row (`ArcIndex.stop_le_of_ofArcs`), so a stretch is as long as its two places are
apart, whether the row is sorted or not.  The out-degree of a graph is therefore the length of the longest list of
arcs that a state has (`isGreatest_outDegree`).
-/

namespace LexicalTransducer

theorem ArcIndex.stop_le_of_ofArcs {arcs : List Arc} {q start stop : Nat}
    (h : (ofArcs arcs)[q]? = some (start, stop)) : stop ≤ arcs.length := by
  induction arcs using List.reverseRecOn generalizing start stop with
  | nil => simp [ofArcs] at h
  | append_singleton arcs a ih =>
    rw [ofArcs_append_singleton, getElem?_add] at h
    rw [List.length_append, List.length_singleton]
    by_cases ha : a.source = q
    · rw [if_pos ha] at h
      cases h
      exact Nat.le_refl _
    · rw [if_neg ha] at h
      have := ih h
      omega

namespace Graph

variable {g : Graph} {q : Nat}

private theorem length_outgoing_of_some {start stop : Nat} (h : g.index[q]? = some (start, stop)) :
    (g.outgoing q).length = stop - start := by
  have hstop : stop ≤ g.arcs.size := by
    rw [g.index_eq] at h
    exact ArcIndex.stop_le_of_ofArcs h
  unfold outgoing arcsFrom
  rw [h, Array.length_toList, Array.size_extract, Nat.min_eq_left hstop]

private theorem length_outgoing_of_none (h : g.index[q]? = none) : (g.outgoing q).length = 0 := by
  unfold outgoing arcsFrom
  rw [h]
  rfl

private theorem length_outgoing_le (g : Graph) (q : Nat) : (g.outgoing q).length ≤ g.outDegree := by
  cases h : g.index[q]? with
  | none =>
    rw [length_outgoing_of_none h]
    exact Nat.zero_le _
  | some entry =>
    rw [length_outgoing_of_some h]
    exact le_foldr_max (List.mem_map.2
      ⟨(q, entry), Std.ExtTreeMap.mem_toList_iff_getElem?_eq_some.2 h, rfl⟩)

/-- The out-degree is the largest number of arcs that a state has. -/
theorem isGreatest_outDegree (g : Graph) : IsGreatest (Set.range fun q => (g.outgoing q).length) g.outDegree := by
  constructor
  · rcases foldr_max_mem (g.index.toList.map fun e => e.2.2 - e.2.1) with h | h
    · -- no state has more arcs than none, so any state will do
      have hzero : g.outDegree = 0 := h
      have hle := g.length_outgoing_le 0
      refine ⟨0, ?_⟩
      show (g.outgoing 0).length = g.outDegree
      omega
    · obtain ⟨⟨q, start, stop⟩, he, hlength⟩ := List.mem_map.1 h
      have hq := Std.ExtTreeMap.mem_toList_iff_getElem?_eq_some.1 he
      exact ⟨q, (length_outgoing_of_some hq).trans hlength⟩
  · rintro _ ⟨q, rfl⟩
    exact g.length_outgoing_le q

end Graph

end LexicalTransducer
