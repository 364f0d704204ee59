import LexicalTransducer.Proofs.Graph.Stretch
import LexicalTransducer.Proofs.Search.Recursive
import LexicalTransducer.Proofs.Search.Rows

/-!
# A frame is a path of its own

The frames of a search share one output and one array of environments.  Read through the marks that a frame has set
on entry, the workspace gives the path to that frame as if it had copies of its own (`Workspace.branch`), and what
happens above a frame does not change that path (`Keeps.branch_eq`).  To follow an arc in the workspace is to try
the arc on the path (`follow_simulates`).
-/

namespace LexicalTransducer

namespace Workspace

/-- The path to a frame that has `height` frames below it. -/
def branch (w : Workspace) (f : Frame) (height : Nat) : Branch where
  state := f.state
  consumed := f.consumed
  env := w.row f.flagDepth
  output := w.output.toList.take f.outputLength
  idle := height - f.consumed

/-- The marks of a frame lie within what the workspace has grown to. -/
structure Holds (w : Workspace) (f : Frame) : Prop where
  outputLength_le : f.outputLength ≤ w.output.size
  flagDepth_le : f.flagDepth ≤ w.flagDepth

/-- The output and the rows of `w` are still there in `w'`. -/
structure Keeps (w w' : Workspace) : Prop where
  output : w.output.toList <+: w'.output.toList
  flagDepth_le : w.flagDepth ≤ w'.flagDepth
  row : ∀ k ≤ w.flagDepth, w'.row k = w.row k

private theorem Keeps.refl (w : Workspace) : w.Keeps w where
  output := List.prefix_refl _
  flagDepth_le := Nat.le_refl _
  row _ _ := rfl

private theorem Keeps.trans {w w' w'' : Workspace} (h : w.Keeps w') (h' : w'.Keeps w'') : w.Keeps w'' where
  output := h.output.trans h'.output
  flagDepth_le := Nat.le_trans h.flagDepth_le h'.flagDepth_le
  row k hk := (h'.row k (Nat.le_trans hk h.flagDepth_le)).trans (h.row k hk)

private theorem Keeps.size_output_le {w w' : Workspace} (h : w.Keeps w') : w.output.size ≤ w'.output.size := by
  have := h.output.length_le
  rwa [Array.length_toList, Array.length_toList] at this

theorem Keeps.holds {w w' : Workspace} (h : w.Keeps w') {f : Frame} (hf : w.Holds f) : w'.Holds f where
  outputLength_le := Nat.le_trans hf.outputLength_le h.size_output_le
  flagDepth_le := Nat.le_trans hf.flagDepth_le h.flagDepth_le

/-- What happens above a frame does not change the path to it. -/
theorem Keeps.branch_eq {w w' : Workspace} (h : w.Keeps w') {f : Frame} (hf : w.Holds f) (height : Nat) :
    w'.branch f height = w.branch f height := by
  obtain ⟨more, hmore⟩ := h.output
  have ho : w'.output.toList.take f.outputLength = w.output.toList.take f.outputLength := by
    rw [← hmore, List.take_append_of_le_length (by rw [Array.length_toList]; exact hf.outputLength_le)]
  simp only [branch, h.row _ hf.flagDepth_le, ho]

/-- A cut at the marks of a frame leaves the output and the rows below as they were. -/
theorem keeps_of_shrink {w : Workspace} {frames : List Frame} {n depth : Nat} (hd : depth ≤ w.flagDepth) :
    Keeps { w with frames, output := w.output.shrink n, flagDepth := depth } w where
  output := by
    rw [Array.toList_shrink]
    exact List.take_prefix _ _
  flagDepth_le := hd
  row _ _ := rfl

private theorem keeps_emit (w : Workspace) (label : Nat) : w.Keeps (w.emit label) where
  output := by
    simp only [emit, Array.toList_push]
    exact List.prefix_append _ _
  flagDepth_le := Nat.le_refl _
  row _ _ := rfl

/-- A flag writes to a new row only. -/
private theorem keeps_applyFlag {w : Workspace} (h : w.IsAllocated) (f : Flag) : w.Keeps (w.pushFlags.applyFlag f) := by
  rw [applyFlag_eq]
  constructor
  · show w.output.toList <+: w.pushFlags.output.toList
    exact ⟨[], by rw [List.append_nil, output_pushFlags]⟩
  · exact flagDepth_le_pushFlags w
  · intro k hk
    rw [← applyFlag_eq]
    -- rows of width zero are not copied, but there is nothing in them to change
    by_cases h0 : w.featureCount = 0
    · refine row_congr (by rw [applyFlag_eq]; exact featureCount_pushFlags w) ?_
      intro i hi
      omega
    · have hd : w.pushFlags.flagDepth = w.flagDepth + 1 := by simp only [pushFlags, h0, ↓reduceIte]
      rw [row_applyFlag_of_lt _ _ (by omega), row_pushFlags_of_le h hk]

/-- `w'` has one frame more than `w`, a fresh one that sets its marks where `w'` has grown to. -/
structure Entered (w w' : Workspace) (child : Frame) : Prop where
  frames : w'.frames = child :: w.frames
  nextArc : child.nextArc = 0
  visited : child.visited = false
  consumed_le : child.consumed ≤ w.frames.length
  outputLength : child.outputLength = w'.output.size
  flagDepth : child.flagDepth = w'.flagDepth
  keeps : w.Keeps w'
  allocated : w'.IsAllocated

end Workspace

namespace Query

open Workspace

variable (q : Query)

/-- What a step of the search has to do, by what the arc does to the path. -/
inductive Simulates (w : Workspace) : Option (Except LookupError Branch) → StepResult → Prop
  | skipped : Simulates w none (.moved w)
  | failed (e : LookupError) : Simulates w (some (.error e)) (.failed e)
  | entered {w' : Workspace} {child : Frame} (h : Entered w w' child) :
      Simulates w (some (.ok (w'.branch child w.frames.length))) (.moved w')

/-- Entering a state makes a frame for the path that goes on.  `w'` is `w` with the environment of that path. -/
private theorem enter_simulates {w w' : Workspace} {b : Branch} (a : Arc) {consumed : Nat}
    (hb : b.output = w.output.toList) (hw : w' = { w with cells := w'.cells, flagDepth := w'.flagDepth })
    (hk : w.Keeps w') (hal : w'.IsAllocated) (hc : consumed ≤ w.frames.length) :
    Simulates w (some (q.limited (q.goOn b a consumed w'.currentFlags (w.frames.length - consumed))))
      (q.enter w' a.target (q.write a) consumed) := by
  have hframes : w'.frames = w.frames := by rw [hw]
  have houtput : w'.output = w.output := by rw [hw]
  unfold enter
  rw [hframes]
  by_cases hi : q.limits.maxDepth < w.frames.length - consumed
  · rw [if_pos hi]
    have hl := (q.limited_eq_error (b := q.goOn b a consumed w'.currentFlags (w.frames.length - consumed))).2
      ⟨rfl, hi⟩
    rw [hl]
    exact .failed _
  · rw [if_neg hi]
    -- `w''` has the label in its output, but no frame for the new state yet
    obtain ⟨w'', hw''⟩ : ∃ w'', w'' = if q.isVisible (q.write a) then w'.emit (q.write a) else w' := ⟨_, rfl⟩
    have hflags : w'' = { w' with output := w''.output } := by
      rw [hw'']
      split <;> rfl
    have hout : w''.output.toList =
        if q.isVisible (q.write a) then b.output ++ [q.write a] else b.output := by
      rw [hw'', hb, ← houtput]
      split <;> simp [emit]
    have hkeeps : w'.Keeps w'' := by
      rw [hw'']
      split
      · exact keeps_emit _ _
      · exact Keeps.refl _
    simp only [← hw'']
    obtain ⟨child, hchild⟩ : ∃ child : Frame, child =
        { state := a.target, consumed, outputLength := w''.output.size, flagDepth := w''.flagDepth } :=
      ⟨_, rfl⟩
    have hentered : Entered w (w''.push child) child := by
      refine ⟨?_, by rw [hchild], by rw [hchild], by rw [hchild]; exact hc, by rw [hchild]; rfl,
        by rw [hchild]; rfl, hk.trans ⟨hkeeps.output, hkeeps.flagDepth_le, hkeeps.row⟩, ?_⟩
      · show child :: w''.frames = child :: w.frames
        rw [hflags, hframes]
      · show (w''.flagDepth + 1) * w''.featureCount ≤ w''.cells.size
        rw [hflags]
        exact hal
    have hbranch : q.limited (q.goOn b a consumed w'.currentFlags (w.frames.length - consumed)) =
        .ok ((w''.push child).branch child w.frames.length) := by
      rw [limited_eq_ok]
      refine ⟨?_, Nat.le_of_not_lt hi⟩
      have hrow : w'.currentFlags = (w''.push child).row child.flagDepth := by
        rw [hchild, hflags]
        rfl
      have htake : (w''.push child).output.toList.take child.outputLength = w''.output.toList := by
        rw [hchild]
        exact List.take_length
      simp only [goOn, branch, ← hrow, htake, hout]
      rw [hchild]
    rw [hbranch, ← hchild]
    exact .entered hentered

/-- To follow an arc out of the top frame is to try it on the path to that frame. -/
theorem follow_simulates {w : Workspace} {f : Frame} (a : Arc) {height : Nat} (hw : w.frames.length = height + 1)
    (hc : f.consumed ≤ height) (ho : f.outputLength = w.output.size) (hd : f.flagDepth = w.flagDepth)
    (hal : w.IsAllocated) :
    Simulates w (q.tryArc (w.branch f height) a) (q.follow w f a) := by
  have hout : (w.branch f height).output = w.output.toList := by
    simp only [branch, ho]
    exact List.take_length
  have henv : (w.branch f height).env = w.currentFlags := by
    simp only [branch, hd]
    rfl
  -- each frame above the first stands for one arc, so the height counts the idle ones
  have hidle : height - f.consumed + 1 = w.frames.length - f.consumed := by omega
  have hidle' : height - f.consumed = w.frames.length - (f.consumed + 1) := by omega
  unfold tryArc
  rw [follow_eq, henv]
  by_cases hε : q.read a = Symbol.epsilonId
  · rw [if_pos hε, if_pos hε]
    simp only [branch, hidle]
    exact q.enter_simulates a hout rfl (.refl w) hal (by omega)
  rw [if_neg hε, if_neg hε]
  by_cases hread : q.input[f.consumed]? = some (q.read a)
  · rw [if_pos hread, if_pos (show q.input[(w.branch f height).consumed]? = some (q.read a) from hread)]
    simp only [branch, hidle']
    exact q.enter_simulates a hout rfl (.refl w) hal (by omega)
  rw [if_neg hread, if_neg (show ¬ q.input[(w.branch f height).consumed]? = some (q.read a) from hread)]
  cases hflag : q.symbols.flag? (q.read a) with
  | none => exact .skipped
  | some flag =>
    simp only [branch, hidle]
    split
    · exact .failed _
    · split
      · rw [← currentFlags_pushFlags hal, ← currentFlags_applyFlag hal.pushFlags]
        refine q.enter_simulates a hout ?_ (keeps_applyFlag hal flag) (hal.pushFlags.applyFlag flag) (by omega)
        rw [applyFlag_eq, pushFlags]
        split <;> rfl
      · exact .skipped

end Query

end LexicalTransducer
