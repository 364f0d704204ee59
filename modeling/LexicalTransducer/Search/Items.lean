import LexicalTransducer.Search.Weight

/-!
# The results of a search

`next` runs a search up to its next result and leaves the rest of the work; `items` lists all results.  An error is
the last item.
-/

namespace LexicalTransducer.Query

variable (q : Query)

/-- Run the search up to its next item.  Behind the last one there is no frame left. -/
def next (w : Workspace) : Option Item × Workspace :=
  match _h : q.step w with
  | .exhausted => (none, w)
  | .result v rest => (some (.ok v), rest)
  | .failed e => (some (.error e), { w with frames := [] })
  | .moved rest => next rest
termination_by q.weight w
decreasing_by exact q.weight_lt_of_step_moved _h

def items (w : Workspace) : List Item :=
  match _h : q.step w with
  | .exhausted => []
  | .result v rest => .ok v :: items rest
  | .failed e => [.error e]
  | .moved rest => items rest
termination_by q.weight w
decreasing_by
  · exact q.weight_lt_of_step_result _h
  · exact q.weight_lt_of_step_moved _h

variable {q}

theorem items_of_exhausted {w : Workspace} (h : q.step w = .exhausted) : q.items w = [] := by
  rw [items]; split <;> simp_all

theorem items_of_result {w rest : Workspace} {v : List Nat} (h : q.step w = .result v rest) :
    q.items w = .ok v :: q.items rest := by
  rw [items]; split <;> simp_all

theorem items_of_failed {w : Workspace} {e : LookupError} (h : q.step w = .failed e) :
    q.items w = [.error e] := by
  rw [items]; split <;> simp_all

theorem items_of_moved {w rest : Workspace} (h : q.step w = .moved rest) : q.items w = q.items rest := by
  rw [items]; split <;> simp_all

theorem items_of_frames_nil {w : Workspace} (h : w.frames = []) : q.items w = [] :=
  items_of_exhausted (by unfold step; rw [h])

/-- `items` lists what `next` gives one by one. -/
theorem items_eq_next (w : Workspace) :
    q.items w = match q.next w with
      | (none, _) => []
      | (some i, rest) => i :: q.items rest := by
  fun_induction next q w with
  | case1 w hs => exact items_of_exhausted hs
  | case2 w v rest hs => exact items_of_result hs
  | case3 w e hs =>
    have hn : q.items { w with frames := [] } = [] := items_of_frames_nil rfl
    simp only [items_of_failed hs, hn]
  | case4 w rest hs ih => rw [items_of_moved hs, ih]

variable (q)

def start (initial : Option Nat) : Workspace :=
  (Workspace.empty q.symbols.featureCount).reset initial

end LexicalTransducer.Query
