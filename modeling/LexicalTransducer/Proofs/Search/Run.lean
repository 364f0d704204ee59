import LexicalTransducer.Proofs.Search.Pending

/-!
# The run of a search

A whole run gives the items that the recursive search finds (`items_start`).  They come one at a time, and asking
for the next one goes on where the last one was found (`pull_eq_getElem?`); behind the last one nothing comes.
-/

namespace LexicalTransducer.Query

open Workspace

variable (q : Query)

/-- The item that the call of `next` with this number gives, counted from zero. -/
def pull (w : Workspace) : Nat → Option Item
  | 0 => (q.next w).1
  | n + 1 => pull (q.next w).2 n

private theorem items_of_next_none {w w' : Workspace} (h : q.next w = (none, w')) : q.items w' = [] := by
  fun_induction next q w with
  | case1 w hs =>
    cases h
    exact items_of_exhausted hs
  | case2 w v rest hs => cases h
  | case3 w e hs => cases h
  | case4 w rest hs ih => exact ih h

theorem pull_eq_getElem? (w : Workspace) (n : Nat) : q.pull w n = (q.items w)[n]? := by
  induction n generalizing w with
  | zero =>
    rw [pull, items_eq_next]
    obtain ⟨_ | i, rest⟩ := q.next w <;> rfl
  | succ n ih =>
    rw [pull, ih, items_eq_next w]
    cases hn : q.next w with
    | mk item rest =>
      cases item with
      | none => simp only [q.items_of_next_none hn, List.getElem?_nil]
      | some i => rw [List.getElem?_cons_succ]

/-- The items of a search that ends within `n` steps.  Unlike `items` it computes by unfolding. -/
def itemsWithin : Nat → Workspace → Option (List Item)
  | 0, _ => none
  | n + 1, w =>
    match q.step w with
    | .exhausted => some []
    | .result v rest => (itemsWithin n rest).map (.ok v :: ·)
    | .failed e => some [.error e]
    | .moved rest => itemsWithin n rest

theorem items_of_itemsWithin {n : Nat} {w : Workspace} {items : List Item} (h : q.itemsWithin n w = some items) :
    q.items w = items := by
  induction n generalizing w items with
  | zero => cases h
  | succ n ih =>
    unfold itemsWithin at h
    split at h
    · rename_i hs
      cases h
      exact items_of_exhausted hs
    · rename_i v rest hs
      obtain ⟨tail, ht, rfl⟩ := Option.map_eq_some_iff.1 h
      rw [items_of_result hs, ih ht]
    · rename_i e hs
      cases h
      exact items_of_failed hs
    · rename_i rest hs
      rw [items_of_moved hs, ih h]

/-- What a search still gives is what its frames still have to find. -/
private theorem items_eq_pending {w : Workspace} (h : w.Stacked) : q.items w = (q.pending w).items := by
  fun_induction items q w with
  | case1 w hs =>
    have := q.step_accounts h
    rw [hs] at this
    rw [this]
    rfl
  | case2 w v rest hs ih =>
    have := q.step_accounts h
    rw [hs] at this
    rw [this.2, ih this.1]
    rfl
  | case3 w e hs =>
    have := q.step_accounts h
    rw [hs] at this
    rw [this]
    rfl
  | case4 w rest hs ih =>
    have := q.step_accounts h
    rw [hs] at this
    rw [this.2, ih this.1]

theorem stacked_start (initial : Option Nat) : (q.start initial).Stacked := by
  have hal : (q.start initial).IsAllocated := by
    simp [start, reset, empty, IsAllocated]
  cases initial with
  | none => exact ⟨trivial, .nil, .nil, by simp [start, reset], hal⟩
  | some state =>
    refine ⟨⟨Nat.le_refl _, trivial⟩, List.pairwise_singleton .., List.pairwise_singleton .., ?_, hal⟩
    intro f hf
    rw [show f = { state } from List.mem_singleton.1 hf]
    exact ⟨Nat.zero_le _, Nat.zero_le _⟩

/-- The findings of the recursive search through the arcs as the graph gives them. -/
def findings (initial : Option Nat) : Findings :=
  match initial with
  | none => {}
  | some state => q.explore q.graph.outgoing (q.root state)

/-- The first frame has the path without arcs. -/
theorem branch_start (state : Nat) : (q.start (some state)).branch { state } 0 = q.root state := by
  have hrow : (q.start (some state)).row 0 = Array.replicate q.symbols.featureCount unset := by
    simp [row, start, reset, empty]
  simp only [branch, hrow, List.take_zero, Nat.zero_sub]
  rfl

private theorem pending_start (initial : Option Nat) : q.pending (q.start initial) = q.findings initial := by
  cases initial with
  | none => rfl
  | some state =>
    have hp : q.pending (q.start (some state)) =
        ((q.arrive ((q.start (some state)).branch { state } 0)).andThen
          (q.exploreFrom ((q.start (some state)).branch { state } 0) 0)).andThen {} := rfl
    rw [hp, branch_start, exploreFrom_zero, Findings.andThen_nothing]
    rfl

/-- A search gives the findings of the recursive one, in order. -/
theorem items_start (initial : Option Nat) : q.items (q.start initial) = (q.findings initial).items := by
  rw [q.items_eq_pending (q.stacked_start initial), pending_start]

/-- In a sorted row the graph gives the arcs of a state as the row has them. -/
private theorem findings_eq_search (h : q.graph.IsSorted) (initial : Option Nat) :
    q.findings initial = q.search initial := by
  have ho : q.graph.outgoing = fun s => q.graph.arcs.toList.filter fun a => a.source = s :=
    funext fun s => Graph.outgoing_eq_filter h s
  cases initial with
  | none => rfl
  | some state => rw [findings, search, ho]

/-- One call after the other gives the items of the recursive search, each in its turn, and then nothing more. -/
theorem pull_start_eq_search (h : q.graph.IsSorted) (initial : Option Nat) (n : Nat) :
    q.pull (q.start initial) n = (q.search initial).items[n]? := by
  rw [pull_eq_getElem?, items_start, q.findings_eq_search h]

/-- A flag, a loop that consumes nothing, and an arc that consumes the only symbol of the input. -/
def looping : Query where
  graph := .ofArcs [⟨0, 2, 2, 1⟩, ⟨0, 0, 0, 0⟩, ⟨1, 3, 1, 2⟩] {2}
  symbols :=
    { symbols := .ofList [(1, Symbol.grapheme 'a'), (2, .flag ⟨.positive, 0, 1, "@P.A.X@"⟩), (3, .grapheme 'b')]
      codes := .ofList [("a", 1), ("b", 3)]
      featureCount := 1 }
  input := #[1]
  tape := .lower
  limits := { maxDepth := 2 }

/-- The second result goes through the loop once. -/
theorem pull_looping_eq_search : looping.graph.IsSorted ∧
    looping.pull (looping.start (some 0)) 1 = (looping.search (some 0)).items[1]? :=
  have h : looping.graph.IsSorted := by decide
  ⟨h, looping.pull_start_eq_search h (some 0) 1⟩

end LexicalTransducer.Query
