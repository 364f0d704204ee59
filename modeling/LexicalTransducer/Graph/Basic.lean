import LexicalTransducer.Net.States

/-!
# Graphs

A graph is what a lookup walks: a row of arcs, and the states that accept.  The arcs of a state are the stretch of
the row from its first arc to its last one, and an index says where each stretch begins and ends.  In a row in
which the arcs of every state stand together, as in the sorted row of a net, a stretch holds the arcs of its state
and no others.
-/

namespace LexicalTransducer

/-- Where the stretch of arcs of each state begins, and the place behind its end. -/
abbrev ArcIndex := Std.ExtTreeMap Nat (Nat × Nat)

namespace ArcIndex

/-- Take the arc at a place of the row into the index. -/
def add (index : ArcIndex) (entry : Arc × Nat) : ArcIndex :=
  index.alter entry.1.source fun
    | some (start, _) => some (start, entry.2 + 1)
    | none => some (entry.2, entry.2 + 1)

def ofArcs (arcs : List Arc) : ArcIndex :=
  arcs.zipIdx.foldl add ∅

end ArcIndex

/-- A row of arcs with its index, and the states that accept. -/
structure Graph where
  arcs : Array Arc
  accepting : StateSet
  index : ArcIndex
  index_eq : index = ArcIndex.ofArcs arcs.toList
deriving DecidableEq

namespace Graph

def ofArcs (arcs : List Arc) (accepting : StateSet) : Graph where
  arcs := arcs.toArray
  accepting
  index := ArcIndex.ofArcs arcs
  index_eq := rfl

def accepts (g : Graph) (q : Nat) : Bool :=
  g.accepting.contains q

def arcsFrom (g : Graph) (q : Nat) : Array Arc :=
  match g.index[q]? with
  | some (start, stop) => g.arcs.extract start stop
  | none => #[]

/-- The arc with this number among those of a state. -/
def arc? (g : Graph) (q k : Nat) : Option Arc :=
  match g.index[q]? with
  | some (start, stop) => if start + k < stop then g.arcs[start + k]? else none
  | none => none

/-- The largest number of arcs of one state. -/
def outDegree (g : Graph) : Nat :=
  (g.index.toList.map fun e => e.2.2 - e.2.1).foldr max 0

theorem getElem?_arcsFrom (g : Graph) (q k : Nat) : (g.arcsFrom q)[k]? = g.arc? q k := by
  unfold arcsFrom arc?
  split
  · rename_i start stop _
    rw [Array.getElem?_extract]
    by_cases h : start + k < stop
    · by_cases h2 : start + k < g.arcs.size
      · rw [if_pos (by omega), if_pos h]
      · rw [if_neg (by omega), if_pos h, Array.getElem?_eq_none (by omega)]
    · rw [if_neg (by omega), if_neg h]
  · rfl

theorem le_foldr_max {n : Nat} {ns : List Nat} (h : n ∈ ns) : n ≤ ns.foldr max 0 := by
  induction ns with
  | nil => simp at h
  | cons m ns ih =>
    rcases List.mem_cons.mp h with rfl | h
    · simp only [List.foldr_cons]; omega
    · have := ih h
      simp only [List.foldr_cons]; omega

theorem lt_outDegree_of_arc? {g : Graph} {q k : Nat} {a : Arc} (h : g.arc? q k = some a) :
    k < g.outDegree := by
  unfold arc? at h
  split at h
  · rename_i start stop hq
    have hm : stop - start ≤ g.outDegree := le_foldr_max (List.mem_map.mpr
      ⟨(q, start, stop), Std.ExtTreeMap.mem_toList_iff_getElem?_eq_some.mpr hq, rfl⟩)
    split at h
    · exact Nat.lt_of_lt_of_le (by omega) hm
    · cases h
  · cases h

end Graph

end LexicalTransducer
