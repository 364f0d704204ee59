import LexicalTransducer.Graph.Basic
import Mathlib.Data.List.Induction

/-!
# The arcs of a state in a sorted row

In a row of arcs that ascends by source the arcs of every state stand together, and the index finds for each state
the one stretch that holds them (`ArcIndex.ofArcs_isStretch`).  So the arcs of a state are the arcs of the row with
that source, in the order of the row (`outgoing_eq_filter`).
-/

namespace LexicalTransducer

def SortedBySource (arcs : List Arc) : Prop :=
  arcs.Pairwise fun a b => a.source ≤ b.source

/-- The arcs with source `q` are those between the two places. -/
def IsStretch (arcs : List Arc) (q start stop : Nat) : Prop :=
  ∃ before inside after, arcs = before ++ inside ++ after ∧ inside ≠ [] ∧
    start = before.length ∧ stop = before.length + inside.length ∧
    (∀ a ∈ inside, a.source = q) ∧ ∀ a ∈ before ++ after, a.source ≠ q

private theorem IsStretch.filter_eq {arcs : List Arc} {q start stop : Nat} (h : IsStretch arcs q start stop) :
    arcs.filter (fun a => a.source = q) = (arcs.take stop).drop start := by
  obtain ⟨before, inside, after, rfl, -, rfl, rfl, hin, hout⟩ := h
  have hb : before.filter (fun a => a.source = q) = [] := by
    rw [List.filter_eq_nil_iff]
    intro a ha
    simpa using hout a (List.mem_append_left _ ha)
  have ha : after.filter (fun a => a.source = q) = [] := by
    rw [List.filter_eq_nil_iff]
    intro a ha
    simpa using hout a (List.mem_append_right _ ha)
  have hi : inside.filter (fun a => a.source = q) = inside := by
    rw [List.filter_eq_self]
    intro a ha
    simpa using hin a ha
  rw [List.filter_append, List.filter_append, hb, ha, hi, ← List.length_append,
    List.take_left, List.drop_left, List.nil_append, List.append_nil]

/-- An arc behind the row that leaves another state changes no stretch. -/
private theorem IsStretch.append_other {arcs : List Arc} {q start stop : Nat} {a : Arc}
    (h : IsStretch arcs q start stop) (ha : a.source ≠ q) : IsStretch (arcs ++ [a]) q start stop := by
  obtain ⟨before, inside, after, rfl, hne, hstart, hstop, hin, hout⟩ := h
  refine ⟨before, inside, after ++ [a], by simp, hne, hstart, hstop, hin, ?_⟩
  intro b hb
  rw [← List.append_assoc, List.mem_append, List.mem_singleton] at hb
  rcases hb with hb | rfl
  · exact hout b hb
  · exact ha

/-- In a sorted row the stretch of a state that the last arc leaves ends with that arc. -/
private theorem IsStretch.append_same {arcs : List Arc} {q start stop : Nat} {a : Arc}
    (h : IsStretch arcs q start stop) (hs : SortedBySource (arcs ++ [a])) (ha : a.source = q) :
    IsStretch (arcs ++ [a]) q start ((arcs ++ [a]).length) := by
  obtain ⟨before, inside, after, rfl, hne, hstart, -, hin, hout⟩ := h
  -- what stands behind the stretch would have a source between `q` and `q`
  have hafter : after = [] := by
    rw [List.eq_nil_iff_forall_not_mem]
    intro b hb
    obtain ⟨c, hc⟩ := List.exists_mem_of_ne_nil _ hne
    unfold SortedBySource at hs
    rw [List.pairwise_append, List.pairwise_append] at hs
    have hcb := hs.1.2.2 c (List.mem_append_right _ hc) b hb
    have hba := hs.2.2 b (List.mem_append_right _ hb) a (List.mem_singleton_self a)
    have hcq := hin c hc
    exact hout b (List.mem_append_right _ hb) (by omega)
  subst hafter
  refine ⟨before, inside ++ [a], [], by simp, by simp, hstart, by simp, ?_, hout⟩
  intro b hb
  rw [List.mem_append, List.mem_singleton] at hb
  rcases hb with hb | rfl
  · exact hin b hb
  · exact ha

namespace ArcIndex

theorem ofArcs_append_singleton (arcs : List Arc) (a : Arc) :
    ofArcs (arcs ++ [a]) = (ofArcs arcs).add (a, arcs.length) := by
  simp [ofArcs, List.zipIdx_append]

theorem getElem?_add (index : ArcIndex) (a : Arc) (place q : Nat) :
    (index.add (a, place))[q]? =
      if a.source = q then some ((index[q]?.map (·.1)).getD place, place + 1) else index[q]? := by
  unfold add
  rw [Std.ExtTreeMap.getElem?_alter]
  by_cases h : a.source = q
  · subst h
    simp only [Std.ReflCmp.compare_self, ↓reduceIte]
    cases index[a.source]? <;> rfl
  · simp only [h, Nat.compare_eq_eq, ↓reduceIte]

/-- The index of a sorted row knows the stretch of every state, and leaves out the states without one. -/
theorem ofArcs_isStretch {arcs : List Arc} (hs : SortedBySource arcs) (q : Nat) :
    match (ofArcs arcs)[q]? with
    | some (start, stop) => IsStretch arcs q start stop
    | none => ∀ a ∈ arcs, a.source ≠ q := by
  -- the index takes in one arc after the other, so the induction is on the row from its end
  induction arcs using List.reverseRecOn with
  | nil => simp [ofArcs]
  | append_singleton arcs a ih =>
    have ih := ih (List.pairwise_append.1 hs).1
    rw [ofArcs_append_singleton, getElem?_add]
    by_cases ha : a.source = q
    · rw [if_pos ha]
      cases hq : (ofArcs arcs)[q]? with
      | none =>
        rw [hq] at ih
        refine ⟨arcs, [a], [], by simp, by simp, rfl, rfl, by simpa using ha, by simpa using ih⟩
      | some entry =>
        rw [hq] at ih
        have := ih.append_same hs ha
        rwa [List.length_append] at this
    · rw [if_neg ha]
      cases hq : (ofArcs arcs)[q]? with
      | none =>
        rw [hq] at ih
        intro b hb
        rw [List.mem_append, List.mem_singleton] at hb
        rcases hb with hb | rfl
        · exact ih b hb
        · exact ha
      | some entry =>
        rw [hq] at ih
        exact ih.append_other ha

end ArcIndex

namespace Graph

/-- The row of the graph ascends by source, as a lookup needs it. -/
def IsSorted (g : Graph) : Prop :=
  SortedBySource g.arcs.toList

instance (g : Graph) : Decidable g.IsSorted :=
  inferInstanceAs (Decidable (g.arcs.toList.Pairwise fun a b => a.source ≤ b.source))

/-- The arcs of a state, in the order in which a search tries them. -/
def outgoing (g : Graph) (q : Nat) : List Arc :=
  (g.arcsFrom q).toList

theorem getElem?_outgoing (g : Graph) (q k : Nat) : (g.outgoing q)[k]? = g.arc? q k := by
  unfold outgoing
  rw [Array.getElem?_toList, getElem?_arcsFrom]

theorem mem_arcs_of_arc? {g : Graph} {q k : Nat} {a : Arc} (h : g.arc? q k = some a) : a ∈ g.arcs.toList := by
  unfold arc? at h
  split at h
  · split at h
    · exact Array.mem_toList_iff.2 (Array.mem_of_getElem? h)
    · cases h
  · cases h

theorem mem_arcs_of_outgoing {g : Graph} {q : Nat} {a : Arc} (h : a ∈ g.outgoing q) : a ∈ g.arcs.toList := by
  obtain ⟨k, hk⟩ := List.mem_iff_getElem?.1 h
  rw [getElem?_outgoing] at hk
  exact mem_arcs_of_arc? hk

/-- In a sorted row the arcs of a state are those with this source. -/
theorem outgoing_eq_filter {g : Graph} (h : g.IsSorted) (q : Nat) :
    g.outgoing q = g.arcs.toList.filter fun a => a.source = q := by
  have hi := ArcIndex.ofArcs_isStretch h q
  rw [← g.index_eq] at hi
  unfold outgoing arcsFrom
  cases hq : g.index[q]? with
  | none =>
    rw [hq] at hi
    symm
    rw [List.filter_eq_nil_iff]
    intro a ha
    simpa using hi a ha
  | some entry =>
    rw [hq] at hi
    rw [hi.filter_eq, Array.toList_extract, List.extract_eq_drop_take']

end Graph

end LexicalTransducer
