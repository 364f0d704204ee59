import LexicalTransducer.Proofs.Search.Simulation

/-!
# What a stack of frames still has to find

The findings that a search still has in front of it are those of its frames, the top frame first: its own output, if
acceptance has not been looked at, and what the arcs lead to that it has not tried (`pending`).  A step keeps the
stack in order (`Stacked`) and gives away of these findings exactly the item it ends with (`step_accounts`).
-/

namespace LexicalTransducer

namespace Workspace

/-- Each frame stands behind at least as many arcs as it has consumed symbols. -/
def Climbing : List Frame → Prop
  | [] => True
  | f :: below => f.consumed ≤ below.length ∧ Climbing below

/-- The frames are in order: from one to the next the marks only grow, up to what the workspace has grown to. -/
structure Stacked (w : Workspace) : Prop where
  climbing : Climbing w.frames
  outputLength_le : w.frames.Pairwise fun upper lower => lower.outputLength ≤ upper.outputLength
  flagDepth_le : w.frames.Pairwise fun upper lower => lower.flagDepth ≤ upper.flagDepth
  holds : ∀ f ∈ w.frames, w.Holds f
  allocated : w.IsAllocated

/-- The order of the frames is an order of their marks only. -/
theorem Stacked.replace_top {w : Workspace} {top : Frame} {below : List Frame} (h : w.Stacked)
    (hw : w.frames = top :: below) (top' : Frame) (hc : top'.consumed = top.consumed)
    (ho : top'.outputLength = top.outputLength) (hd : top'.flagDepth = top.flagDepth) :
    Stacked { w with frames := top' :: below } := by
  obtain ⟨hcl, hol, hfl, hh, hal⟩ := h
  rw [hw] at hcl hol hfl hh
  rw [List.pairwise_cons] at hol hfl
  refine ⟨⟨by rw [hc]; exact hcl.1, hcl.2⟩, ?_, ?_, ?_, hal⟩
  · exact List.pairwise_cons.2 ⟨fun f hf => by rw [ho]; exact hol.1 f hf, hol.2⟩
  · exact List.pairwise_cons.2 ⟨fun f hf => by rw [hd]; exact hfl.1 f hf, hfl.2⟩
  · intro f hf
    rcases List.mem_cons.1 hf with rfl | hf
    · have := hh top (List.mem_cons_self ..)
      exact ⟨by rw [ho]; exact this.outputLength_le, by rw [hd]; exact this.flagDepth_le⟩
    · exact ⟨(hh f (List.mem_cons_of_mem _ hf)).outputLength_le, (hh f (List.mem_cons_of_mem _ hf)).flagDepth_le⟩

theorem Stacked.pop {w : Workspace} {top : Frame} {below : List Frame} (h : w.Stacked)
    (hw : w.frames = top :: below) : Stacked { w with frames := below } := by
  obtain ⟨hcl, hol, hfl, hh, hal⟩ := h
  rw [hw] at hcl hol hfl hh
  exact ⟨hcl.2, (List.pairwise_cons.1 hol).2, (List.pairwise_cons.1 hfl).2,
    fun f hf => ⟨(hh f (List.mem_cons_of_mem _ hf)).outputLength_le,
      (hh f (List.mem_cons_of_mem _ hf)).flagDepth_le⟩, hal⟩

/-- A cut at the marks of the top frame keeps the frames in order. -/
theorem Stacked.cut {w : Workspace} {top : Frame} {below : List Frame} (h : w.Stacked)
    (hw : w.frames = top :: below) (depth : Nat) (hle : top.flagDepth ≤ depth) (hd : depth ≤ w.flagDepth) :
    Stacked { w with output := w.output.shrink top.outputLength, flagDepth := depth } := by
  obtain ⟨hcl, hol, hfl, hh, hal⟩ := h
  refine ⟨hcl, hol, hfl, ?_, ?_⟩
  · intro f hf
    have htop := hh top (by rw [hw]; exact List.mem_cons_self ..)
    have hle' : f.outputLength ≤ top.outputLength ∧ f.flagDepth ≤ top.flagDepth := by
      rw [hw] at hf hol hfl
      rcases List.mem_cons.1 hf with rfl | hf
      · exact ⟨Nat.le_refl _, Nat.le_refl _⟩
      · exact ⟨(List.pairwise_cons.1 hol).1 f hf, (List.pairwise_cons.1 hfl).1 f hf⟩
    refine ⟨?_, Nat.le_trans hle'.2 hle⟩
    rw [Array.size_shrink, Nat.le_min]
    exact ⟨hle'.1, (hh f hf).outputLength_le⟩
  · exact hal.restoreFlags hd

/-- A frame that has just been entered stands above the others in order. -/
theorem Stacked.entered {w w' : Workspace} {child : Frame} (h : w.Stacked) (he : Entered w w' child) :
    w'.Stacked := by
  refine ⟨?_, ?_, ?_, ?_, he.allocated⟩
  · rw [he.frames]
    exact ⟨he.consumed_le, h.climbing⟩
  · rw [he.frames, List.pairwise_cons]
    refine ⟨?_, h.outputLength_le⟩
    intro f hf
    rw [he.outputLength]
    exact (he.keeps.holds (h.holds f hf)).outputLength_le
  · rw [he.frames, List.pairwise_cons]
    refine ⟨?_, h.flagDepth_le⟩
    intro f hf
    rw [he.flagDepth]
    exact (he.keeps.holds (h.holds f hf)).flagDepth_le
  · intro f hf
    rw [he.frames] at hf
    rcases List.mem_cons.1 hf with rfl | hf
    · exact ⟨Nat.le_of_eq he.outputLength, Nat.le_of_eq he.flagDepth⟩
    · exact he.keeps.holds (h.holds f hf)

end Workspace

namespace Query

open Workspace

variable (q : Query)

/-- What the arcs of a path lead to from the arc with number `k` on. -/
def exploreFrom (b : Branch) (k : Nat) : Findings :=
  .all (((q.graph.outgoing b.state).drop k).map (q.exploreArc q.graph.outgoing b))

def pendingFrame (w : Workspace) (f : Frame) (height : Nat) : Findings :=
  (if f.visited then {} else q.arrive (w.branch f height)).andThen
    (q.exploreFrom (w.branch f height) f.nextArc)

def pendingStack (w : Workspace) : List Frame → Findings
  | [] => {}
  | f :: below => (q.pendingFrame w f below.length).andThen (pendingStack w below)

/-- What a search still has to find. -/
def pending (w : Workspace) : Findings :=
  q.pendingStack w w.frames

theorem exploreFrom_zero (b : Branch) :
    (q.arrive b).andThen (q.exploreFrom b 0) = q.explore q.graph.outgoing b := by
  rw [explore_eq, exploreFrom, List.drop_zero]

private theorem exploreFrom_of_none {b : Branch} {k : Nat} (h : q.graph.arc? b.state k = none) :
    q.exploreFrom b k = {} := by
  rw [← Graph.getElem?_outgoing, List.getElem?_eq_none_iff] at h
  rw [exploreFrom, List.drop_eq_nil_of_le h, List.map_nil, Findings.all_nil]

private theorem exploreFrom_of_some {b : Branch} {k : Nat} {a : Arc} (h : q.graph.arc? b.state k = some a) :
    q.exploreFrom b k = (q.exploreArc q.graph.outgoing b a).andThen (q.exploreFrom b (k + 1)) := by
  rw [← Graph.getElem?_outgoing, List.getElem?_eq_some_iff] at h
  obtain ⟨hk, rfl⟩ := h
  rw [exploreFrom, List.drop_eq_getElem_cons hk, List.map_cons, Findings.all_cons, exploreFrom]

private theorem pendingStack_frames (w : Workspace) (frames stack : List Frame) :
    q.pendingStack { w with frames } stack = q.pendingStack w stack := by
  induction stack with
  | nil => rfl
  | cons f below ih =>
    rw [pendingStack, pendingStack, ih]
    rfl

private theorem pendingFrame_keeps {w w' : Workspace} (hk : w.Keeps w') {f : Frame} (hf : w.Holds f) (height : Nat) :
    q.pendingFrame w' f height = q.pendingFrame w f height := by
  unfold pendingFrame
  rw [hk.branch_eq hf]

/-- What happens above a stack does not change what it has to find. -/
private theorem pendingStack_keeps {w w' : Workspace} (hk : w.Keeps w') {frames : List Frame}
    (hf : ∀ f ∈ frames, w.Holds f) : q.pendingStack w' frames = q.pendingStack w frames := by
  induction frames with
  | nil => rfl
  | cons f below ih =>
    rw [pendingStack, pendingStack, q.pendingFrame_keeps hk (hf f (List.mem_cons_self ..)),
      ih fun g hg => hf g (List.mem_cons_of_mem _ hg)]

/-- A frame that has just been entered has to find all that its path leads to. -/
private theorem pending_entered {w w' : Workspace} {child : Frame} (h : w.Stacked) (he : Entered w w' child) :
    q.pending w' = (q.explore q.graph.outgoing (w'.branch child w.frames.length)).andThen (q.pending w) := by
  rw [pending, he.frames, pendingStack, q.pendingStack_keeps he.keeps h.holds, pendingFrame, he.visited,
    he.nextArc, if_neg Bool.false_ne_true, exploreFrom_zero, pending]

/-- What a step owes to what the search has to find before it. -/
def Accounts (before : Findings) : StepResult → Prop
  | .exhausted => before = {}
  | .result v rest => rest.Stacked ∧ before = Findings.andThen { outputs := [v] } (q.pending rest)
  | .failed e => before = { error? := some e }
  | .moved rest => rest.Stacked ∧ before = q.pending rest

private theorem accounts_of_simulates {w : Workspace} {f : Frame} {height : Nat} {a : Arc} {r : StepResult}
    (h : w.Stacked) (hs : Simulates w (q.tryArc (w.branch f height) a) r) :
    q.Accounts ((q.exploreArc q.graph.outgoing (w.branch f height) a).andThen (q.pending w)) r := by
  unfold exploreArc
  generalize q.tryArc (w.branch f height) a = tried at hs
  cases hs with
  | skipped => exact ⟨h, rfl⟩
  | failed e => exact Findings.andThen_of_error e _ _ rfl
  | entered he => exact ⟨h.entered he, (q.pending_entered h he).symm⟩

/-- Trying the next arc of a frame that has been looked at accounts for what is pending. -/
private theorem advance_accounts {w : Workspace} {top : Frame} {below : List Frame} (h : w.Stacked)
    (hw : w.frames = top :: below) (hv : top.visited = true) :
    q.Accounts (q.pending w) (q.advance w top below) := by
  have hp : q.pending w = (q.exploreFrom (w.branch top below.length) top.nextArc).andThen
      (q.pendingStack w below) := by
    rw [pending, hw, pendingStack, pendingFrame, hv, if_pos rfl, Findings.nothing_andThen]
  unfold advance
  cases ha : q.graph.arc? top.state top.nextArc with
  | none =>
    refine ⟨h.pop hw, ?_⟩
    rw [hp, q.exploreFrom_of_none (b := w.branch top below.length) ha, Findings.nothing_andThen]
    exact (q.pendingStack_frames w below below).symm
  | some a =>
    have htop := h.holds top (by rw [hw]; exact List.mem_cons_self ..)
    -- `back` is the workspace cut at the marks of the frame
    obtain ⟨back, hback⟩ : ∃ back, back =
      ({ w with frames := { top with nextArc := top.nextArc + 1 } :: below } : Workspace).rewind top := ⟨_, rfl⟩
    have hframes : back.frames = { top with nextArc := top.nextArc + 1 } :: below := by rw [hback]; rfl
    have hst : back.Stacked := by
      rw [hback]
      exact (h.replace_top hw { top with nextArc := top.nextArc + 1 } rfl rfl rfl).cut rfl top.flagDepth
        (Nat.le_refl _) htop.flagDepth_le
    have hkeeps : back.Keeps w := by
      rw [hback]
      exact keeps_of_shrink htop.flagDepth_le
    have hholds : ∀ f ∈ top :: below, back.Holds f := by
      intro f hf
      rcases List.mem_cons.1 hf with rfl | hf
      · have hnext := hst.holds _ (by rw [hframes]; exact List.mem_cons_self ..)
        exact ⟨hnext.outputLength_le, hnext.flagDepth_le⟩
      · exact hst.holds f (by rw [hframes]; exact List.mem_cons_of_mem _ hf)
    have hbranch : w.branch top below.length = back.branch top below.length :=
      hkeeps.branch_eq (hholds top (List.mem_cons_self ..)) _
    have hpending : (q.exploreFrom (w.branch top below.length) (top.nextArc + 1)).andThen
        (q.pendingStack w below) = q.pending back := by
      rw [hbranch, q.pendingStack_keeps hkeeps (fun f hf => hholds f (List.mem_cons_of_mem _ hf)), pending,
        hframes, pendingStack, pendingFrame, if_pos hv, Findings.nothing_andThen]
      rfl
    have hsize : top.outputLength = back.output.size := by
      rw [hback]
      show _ = (w.output.shrink top.outputLength).size
      rw [Array.size_shrink, Nat.min_eq_left htop.outputLength_le]
    have hclimbing := h.climbing
    rw [hw] at hclimbing
    rw [hp, q.exploreFrom_of_some (b := w.branch top below.length) ha, Findings.andThen_assoc, hpending, hbranch]
    simp only [← hback]
    exact q.accounts_of_simulates hst (q.follow_simulates a (by rw [hframes]; rfl) hclimbing.1 hsize
      (by rw [hback]; rfl) hst.allocated)

/-- The output of a frame that is looked at for the first time, if it accepts. -/
private theorem arrive_branch (w : Workspace) (f : Frame) (height : Nat) :
    q.arrive (w.branch f height) =
      if q.accepts f then { outputs := [(w.output.shrink f.outputLength).toList] } else {} := by
  simp only [arrive, accepts, Array.toList_shrink, Bool.and_eq_true, beq_iff_eq]
  rfl

/-- A step gives away of the findings in front of the search what it ends with, and nothing else. -/
theorem step_accounts {w : Workspace} (h : w.Stacked) : q.Accounts (q.pending w) (q.step w) := by
  unfold step
  cases hw : w.frames with
  | nil =>
    show q.pending w = {}
    rw [pending, hw, pendingStack]
  | cons top below =>
    have htop := h.holds top (by rw [hw]; exact List.mem_cons_self ..)
    have hst := h.replace_top hw { top with visited := true } rfl rfl rfl
    -- the frame owes its own output, then what it owes once it has been looked at
    have hsplit : q.pending w = (if top.visited then {} else q.arrive (w.branch top below.length)).andThen
        (q.pending { w with frames := { top with visited := true } :: below }) := by
      rw [pending, hw, pendingStack, pendingFrame, Findings.andThen_assoc]
      congr 1
      show _ = (q.pendingFrame _ { top with visited := true } below.length).andThen (q.pendingStack _ below)
      rw [pendingFrame, if_pos rfl, Findings.nothing_andThen,
        q.pendingStack_frames w ({ top with visited := true } :: below) below]
      rfl
    rw [hsplit, arrive_branch]
    simp only []
    cases hv : top.visited with
    | true =>
      rw [if_pos rfl, Findings.nothing_andThen, if_neg (by simp)]
      exact q.advance_accounts hst rfl rfl
    | false =>
      cases hacc : q.accepts top with
      | false =>
        rw [if_neg (by simp), if_neg (by simp), Findings.nothing_andThen, if_neg (by simp)]
        exact q.advance_accounts hst rfl rfl
      | true =>
        rw [if_neg (by simp), if_pos rfl, if_pos (by simp)]
        have hcut := hst.cut rfl w.flagDepth htop.flagDepth_le (Nat.le_refl _)
        refine ⟨hcut, ?_⟩
        congr 1
        exact q.pendingStack_keeps (keeps_of_shrink (Nat.le_refl _)) hcut.holds

end Query

end LexicalTransducer
