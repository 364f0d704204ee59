import LexicalTransducer.Search.Query

/-!
# Every search ends

The weight of a workspace bounds the steps that a search still takes, and every step makes it smaller
(`weight_lt_of_step_moved`, `weight_lt_of_step_result`).  So a search ends also on a graph with cycles that consume
nothing: such arcs are bounded by the depth limit, the others by the input.
-/

namespace LexicalTransducer.Query

variable (q : Query)

/-- How many arcs a path may still have behind a frame, by the number of frames below it. -/
def budget (f : Frame) (height : Nat) : Nat :=
  q.limits.maxDepth + max q.input.size f.consumed - height

/-- The most steps that a fresh frame takes, by the arcs a path may have up to its end, itself included. -/
def subtreeWeight (degree : Nat) : Nat → Nat
  | 0 => 0
  | n + 1 => 2 + degree * (1 + subtreeWeight degree n)

def frameWeight (f : Frame) (height : Nat) : Nat :=
  (if f.visited then 1 else 2) +
    (q.graph.outDegree - f.nextArc) * (1 + subtreeWeight q.graph.outDegree (q.budget f height))

def stackWeight : List Frame → Nat
  | [] => 0
  | f :: frames => q.frameWeight f frames.length + stackWeight frames

/-- The most steps that a search still takes. -/
def weight (w : Workspace) : Nat :=
  q.stackWeight w.frames

theorem frameWeight_visited_lt {f : Frame} (h : f.visited = false) (height : Nat) :
    q.frameWeight { f with visited := true } height < q.frameWeight f height := by
  simp only [frameWeight, budget, h, ↓reduceIte, Bool.false_eq_true]
  omega

theorem frameWeight_visited_le (f : Frame) (height : Nat) :
    q.frameWeight { f with visited := true } height ≤ q.frameWeight f height := by
  simp only [frameWeight, budget, ↓reduceIte]
  split <;> omega

theorem frameWeight_nextArc {f : Frame} (h : f.nextArc < q.graph.outDegree) (height : Nat) :
    q.frameWeight { f with nextArc := f.nextArc + 1 } height +
      (1 + subtreeWeight q.graph.outDegree (q.budget f height)) = q.frameWeight f height := by
  obtain ⟨k, hk⟩ : ∃ k, q.graph.outDegree = f.nextArc + 1 + k := ⟨_, (Nat.add_sub_of_le h).symm⟩
  simp only [frameWeight, budget]
  rw [hk, show f.nextArc + 1 + k - (f.nextArc + 1) = k by omega,
    show f.nextArc + 1 + k - f.nextArc = k + 1 by omega, Nat.succ_mul]
  omega

theorem frameWeight_entered (state consumed outputLength flagDepth height : Nat) :
    q.frameWeight { state, consumed, outputLength, flagDepth } height =
      subtreeWeight q.graph.outDegree (q.limits.maxDepth + max q.input.size consumed - height + 1) := by
  simp [frameWeight, budget, subtreeWeight]

/-- A frame that is entered may still go one arc less far than the one it is entered from. -/
theorem weight_of_enter {w w' : Workspace} {f : Frame} {state label consumed height : Nat}
    (h : q.enter w state label consumed = .moved w') (hw : w.frames.length = height + 1)
    (hc : max q.input.size consumed = max q.input.size f.consumed) :
    q.weight w' = q.weight w + subtreeWeight q.graph.outDegree (q.budget f height) := by
  unfold enter at h
  split at h
  · cases h
  · rename_i hi
    cases h
    have hb : q.limits.maxDepth + max q.input.size consumed - (height + 1) + 1 = q.budget f height := by
      unfold budget; omega
    split <;> simp only [weight, Workspace.push, Workspace.emit, stackWeight, frameWeight_entered, hw, hb] <;> omega

theorem weight_rewind (w : Workspace) (f : Frame) : q.weight (w.rewind f) = q.weight w := rfl

theorem frames_applyFlag (w : Workspace) (f : Flag) : (w.pushFlags.applyFlag f).frames = w.frames := by
  unfold Workspace.applyFlag Workspace.setFlag Workspace.pushFlags
  repeat' split
  all_goals rfl

theorem weight_applyFlag (w : Workspace) (f : Flag) :
    q.weight (w.pushFlags.applyFlag f) = q.weight w := by
  rw [weight, frames_applyFlag, weight]

theorem weight_le_of_follow {w w' : Workspace} {f : Frame} {a : Arc} {height : Nat}
    (h : q.follow w f a = .moved w') (hw : w.frames.length = height + 1) :
    q.weight w' ≤ q.weight w + subtreeWeight q.graph.outDegree (q.budget f height) := by
  unfold follow at h
  dsimp only at h
  split at h
  · exact Nat.le_of_eq (q.weight_of_enter h hw rfl)
  · split at h
    · rename_i hc
      obtain ⟨hlt, -⟩ := Array.getElem?_eq_some_iff.mp hc
      exact Nat.le_of_eq (q.weight_of_enter h hw (by omega))
    · split at h
      · cases h; omega
      · split at h
        · cases h
        · split at h
          · have := q.weight_of_enter (f := f) h (by rw [frames_applyFlag]; exact hw) rfl
            rw [weight_applyFlag] at this
            omega
          · cases h; omega

theorem weight_lt_of_advance {w w' : Workspace} {top : Frame} {below : List Frame}
    (h : q.advance w top below = .moved w') :
    q.weight w' < q.frameWeight top below.length + q.stackWeight below := by
  unfold advance at h
  split at h
  · cases h
    have : 0 < q.frameWeight top below.length := by unfold frameWeight; split <;> omega
    simp only [weight]; omega
  · rename_i a ha
    have h1 := q.weight_le_of_follow h (show _ = below.length + 1 from rfl)
    have h2 := q.frameWeight_nextArc (Graph.lt_outDegree_of_arc? ha) below.length
    rw [weight_rewind] at h1
    simp only [weight, stackWeight] at h1 ⊢
    omega

/-- Only a frame that is looked at for the first time gives a result. -/
theorem advance_ne_result (w : Workspace) (top : Frame) (below : List Frame) (v : List Nat) (w' : Workspace) :
    q.advance w top below ≠ .result v w' := by
  intro h
  unfold advance at h
  split at h
  · cases h
  · unfold follow enter at h
    dsimp only at h
    repeat' split at h
    all_goals cases h

/-- A step that leaves work leaves less. -/
theorem weight_lt_of_step_moved {w w' : Workspace} (h : q.step w = .moved w') :
    q.weight w' < q.weight w := by
  unfold step at h
  split at h
  · cases h
  · rename_i top below hf
    simp only at h
    split at h
    · cases h
    · have h1 := q.weight_lt_of_advance h
      have h2 := q.frameWeight_visited_le top below.length
      simp only [weight, hf, stackWeight] at h1 ⊢
      omega

/-- A step that gives a result leaves less work. -/
theorem weight_lt_of_step_result {w w' : Workspace} {v : List Nat} (h : q.step w = .result v w') :
    q.weight w' < q.weight w := by
  unfold step at h
  split at h
  · cases h
  · rename_i top below hf
    simp only at h
    split at h
    · rename_i hv
      cases h
      have hv' : top.visited = false := by
        simp only [Bool.and_eq_true, Bool.not_eq_true'] at hv
        exact hv.1
      have h1 := q.frameWeight_visited_lt hv' below.length
      simp only [weight, hf, stackWeight]
      omega
    · exact absurd h (q.advance_ne_result w _ below v w')

end LexicalTransducer.Query
