import LexicalTransducer.Proofs.Graph.Degree
import LexicalTransducer.Search.Items

/-!
# How long a search takes

A call of `next` is a row of steps up to one that gives an item or finds nothing left to do (`Call`), and a run is a
row of calls up to the first that gives no item (`Run`).  Every call ends (`call_next`), and so does every run.  The
steps of a run are bounded by the weight of its workspace (`Run.le_weight`), and at the start that weight depends on
the out-degree, the length of the input and the depth limit alone (`run_start_bounded`).
-/

namespace LexicalTransducer.Query

variable (q : Query)

/-- A call of `next` that takes this many steps, gives this item and leaves this workspace. -/
inductive Call : Workspace → Nat → Option Item → Workspace → Prop
  | exhausted {w : Workspace} (h : q.step w = .exhausted) : Call w 1 none w
  | result {w rest : Workspace} {v : List Nat} (h : q.step w = .result v rest) : Call w 1 (some (.ok v)) rest
  | failed {w : Workspace} {e : LookupError} (h : q.step w = .failed e) :
      Call w 1 (some (.error e)) { w with frames := [] }
  | moved {w rest w' : Workspace} {n : Nat} {item : Option Item} (h : q.step w = .moved rest)
      (hc : Call rest n item w') : Call w (n + 1) item w'

/-- Calls of `next` one after the other, up to the first that gives no item.  All of them together take this many
steps and give these items. -/
inductive Run : Workspace → Nat → List Item → Prop
  | done {w w' : Workspace} {n : Nat} (hc : q.Call w n none w') : Run w n []
  | item {w w' : Workspace} {n m : Nat} {i : Item} {items : List Item} (hc : q.Call w n (some i) w')
      (hr : Run w' m items) : Run w (n + m) (i :: items)

variable {q}

private theorem Call.pos {w w' : Workspace} {n : Nat} {i : Option Item} (h : q.Call w n i w') : 0 < n := by
  cases h <;> omega

/-- Every call ends, and it ends as `next` does. -/
theorem call_next (q : Query) (w : Workspace) : ∃ n, q.Call w n (q.next w).1 (q.next w).2 := by
  fun_induction next q w with
  | case1 w hs => exact ⟨1, .exhausted hs⟩
  | case2 w v rest hs => exact ⟨1, .result hs⟩
  | case3 w e hs => exact ⟨1, .failed hs⟩
  | case4 w rest hs ih =>
    obtain ⟨n, hc⟩ := ih
    exact ⟨n + 1, .moved hs hc⟩

/-! ### A run is determined by its start -/

private theorem Call.unique {w w' w'' : Workspace} {n m : Nat} {i j : Option Item} (h : q.Call w n i w')
    (h' : q.Call w m j w'') : n = m ∧ i = j ∧ w' = w'' := by
  induction h generalizing m j w'' with
  | exhausted hs =>
    cases h' with
    | exhausted => exact ⟨rfl, rfl, rfl⟩
    | result hs' | failed hs' | moved hs' => cases hs.symm.trans hs'
  | result hs =>
    cases h' with
    | result hs' =>
      cases hs.symm.trans hs'
      exact ⟨rfl, rfl, rfl⟩
    | exhausted hs' | failed hs' | moved hs' => cases hs.symm.trans hs'
  | failed hs =>
    cases h' with
    | failed hs' =>
      cases hs.symm.trans hs'
      exact ⟨rfl, rfl, rfl⟩
    | exhausted hs' | result hs' | moved hs' => cases hs.symm.trans hs'
  | moved hs _ ih =>
    cases h' with
    | moved hs' hc' =>
      cases hs.symm.trans hs'
      obtain ⟨rfl, hend⟩ := ih hc'
      exact ⟨rfl, hend⟩
    | exhausted hs' | result hs' | failed hs' => cases hs.symm.trans hs'

private theorem Run.unique {w : Workspace} {n m : Nat} {items items' : List Item} (h : q.Run w n items)
    (h' : q.Run w m items') : n = m ∧ items = items' := by
  induction h generalizing m items' with
  | done hc =>
    cases h' with
    | done hc' => exact ⟨(hc.unique hc').1, rfl⟩
    | item hc' => cases (hc.unique hc').2.1
  | item hc _ ih =>
    cases h' with
    | done hc' => cases (hc.unique hc').2.1
    | item hc' hr' =>
      obtain ⟨rfl, hi, rfl⟩ := hc.unique hc'
      cases hi
      obtain ⟨rfl, rfl⟩ := ih hr'
      exact ⟨rfl, rfl⟩

/-! ### The steps of a run -/

private theorem frameWeight_pos (f : Frame) (height : Nat) : 0 < q.frameWeight f height := by
  unfold frameWeight
  split <;> omega

/-- Work that can fail is left only where there is a frame. -/
private theorem weight_pos_of_failed {w : Workspace} {e : LookupError} (h : q.step w = .failed e) : 0 < q.weight w := by
  unfold step at h
  split at h
  · cases h
  · rename_i top below hf
    have := q.frameWeight_pos top below.length
    simp only [weight, hf, stackWeight]
    omega

/-- A call takes no more steps than the weight that it uses up, and one step to find nothing left to do. -/
theorem Call.le_weight {w w' : Workspace} {n : Nat} {i : Option Item} (h : q.Call w n i w') :
    match i with
    | none => n ≤ q.weight w + 1
    | some _ => n + q.weight w' ≤ q.weight w := by
  induction h with
  | exhausted => exact Nat.le_add_left 1 _
  | result hs =>
    have := q.weight_lt_of_step_result hs
    show 1 + _ ≤ _
    omega
  | @failed w e hs =>
    have := weight_pos_of_failed hs
    have hnil : q.weight { w with frames := [] } = 0 := rfl
    show 1 + _ ≤ _
    omega
  | @moved w rest w' n item hs hc ih =>
    have := q.weight_lt_of_step_moved hs
    cases item with
    | none =>
      simp only at ih ⊢
      omega
    | some i =>
      simp only at ih ⊢
      omega

theorem Run.le_weight {w : Workspace} {n : Nat} {items : List Item} (h : q.Run w n items) : n ≤ q.weight w + 1 := by
  induction h with
  | done hc => exact hc.le_weight
  | item hc _ ih =>
    have := hc.le_weight
    simp only at this
    omega

/-- A run gives all items that are left. -/
private theorem run_items (q : Query) (w : Workspace) : ∃ n, q.Run w n (q.items w) := by
  -- a call that gives an item leaves less work, so the induction is on the weight
  induction hweight : q.weight w using Nat.strong_induction_on generalizing w with
  | _ weight ih =>
    obtain ⟨n, hc⟩ := q.call_next w
    rw [items_eq_next]
    cases hn : q.next w with
    | mk item rest =>
      rw [hn] at hc
      cases item with
      | none => exact ⟨n, .done hc⟩
      | some i =>
        have hle := hc.le_weight
        have hpos := hc.pos
        simp only at hle hpos
        obtain ⟨m, hr⟩ := ih (q.weight rest) (by omega) rest rfl
        exact ⟨n + m, .item hc hr⟩

/-- The most steps of a run through a graph with this out-degree, for an input of this length. -/
def runBound (degree inputLength maxDepth : Nat) : Nat :=
  subtreeWeight degree (maxDepth + inputLength + 1) + 1

private theorem weight_start_lt (q : Query) (initial : Option Nat) :
    q.weight (q.start initial) + 1 ≤ runBound q.graph.outDegree q.input.size q.limits.maxDepth := by
  cases initial with
  | none => exact Nat.le_add_left 1 _
  | some state =>
    have hframes : (q.start (some state)).frames = [{ state }] := rfl
    have hw := q.frameWeight_entered state 0 0 0 0
    rw [Nat.max_eq_left (Nat.zero_le _), Nat.sub_zero] at hw
    rw [weight, hframes, stackWeight, stackWeight, runBound, List.length_nil, hw, Nat.add_zero]

/-- Every call of `next` ends.  From the start on there is one run, with all items of the search, and its steps are
bounded by the largest out-degree of the graph, the length of the input and the depth limit. -/
theorem run_start_bounded (q : Query) (initial : Option Nat) :
    (∀ w, ∃ n, q.Call w n (q.next w).1 (q.next w).2) ∧
    (∃ n, (∀ m items, q.Run (q.start initial) m items ↔ m = n ∧ items = q.items (q.start initial)) ∧
      n ≤ runBound q.graph.outDegree q.input.size q.limits.maxDepth) ∧
    IsGreatest (Set.range fun state => (q.graph.outgoing state).length) q.graph.outDegree := by
  refine ⟨q.call_next, ?_, q.graph.isGreatest_outDegree⟩
  obtain ⟨n, hr⟩ := q.run_items (q.start initial)
  refine ⟨n, fun m items => ⟨fun h => h.unique hr, ?_⟩, ?_⟩
  · rintro ⟨rfl, rfl⟩
    exact hr
  · exact Nat.le_trans hr.le_weight (q.weight_start_lt initial)

end LexicalTransducer.Query
