import LexicalTransducer.Proofs.Search.Paths
import LexicalTransducer.Proofs.Search.RowStack
import LexicalTransducer.Proofs.Search.Run
import Mathlib.Data.List.Chain

/-!
# The frames of a search are a path

Each frame that has another one above it has taken the arc before its next one, so the frames spell a route from the
initial state (`Query.SpeltBy`).  Whatever paths the search has tried before, the output up to the mark of a frame is
the output of its route, and the row at its mark is the environment behind the flags of its route (`StandsFor`).  The
marks rise by at most one from a frame to the next one, and the rows that they point to are there.  All this holds
wherever the search is in the course of its calls (`isDisciplined_after`).
-/

namespace LexicalTransducer

/-- From a frame to the one above it no mark goes down, and none goes up by more than one. -/
structure Frame.Rises (upper lower : Frame) : Prop where
  consumed : lower.consumed ≤ upper.consumed ∧ upper.consumed ≤ lower.consumed + 1
  outputLength : lower.outputLength ≤ upper.outputLength ∧ upper.outputLength ≤ lower.outputLength + 1
  flagDepth : lower.flagDepth ≤ upper.flagDepth ∧ upper.flagDepth ≤ lower.flagDepth + 1

namespace Query

open Workspace

variable (q : Query)

/-! ### The route of a frame -/

/-- The frames, the last one first, spell this route from the initial state. -/
inductive SpeltBy (initial : Option Nat) : Route → List Frame → Prop
  | root {f : Frame} (hs : initial = some f.state) : SpeltBy initial [] [f]
  | arc {f g : Frame} {below : List Frame} {route : Route} {k : Nat} {a : Arc}
      (h : SpeltBy initial route (g :: below)) (hk : g.nextArc = k + 1) (ha : q.graph.arc? g.state k = some a)
      (hs : f.state = a.target) : SpeltBy initial (route ++ [(k, a)]) (f :: g :: below)

/-- The flags that a route takes behind so many symbols of the input: what is neither epsilon nor the next symbol. -/
def flagsTaken (consumed : Nat) : Route → List Flag
  | [] => []
  | (_, a) :: route =>
    if q.read a = Symbol.epsilonId then flagsTaken consumed route
    else if q.input[consumed]? = some (q.read a) then flagsTaken (consumed + 1) route
    else (q.symbols.flag? (q.read a)).toList ++ flagsTaken consumed route

/-- The environment behind some flags, from the one in which nothing is set. -/
def envBehind (flags : List Flag) : Array Nat :=
  flags.foldl (fun env f => f.apply env) (Array.replicate q.symbols.featureCount unset)

/-- What a frame points to in the workspace is what its route has led to. -/
structure StandsFor (w : Workspace) (f : Frame) (route : Route) : Prop where
  output : w.output.toList.take f.outputLength = q.outputOf route
  row : w.row f.flagDepth = q.envBehind (q.flagsTaken 0 route)

/-- How the stacks of a search are kept. -/
structure IsDisciplined (initial : Option Nat) (w : Workspace) : Prop where
  height_le : w.frames.length ≤ q.input.size + q.limits.maxDepth + 1
  rises : w.frames.IsChain Frame.Rises
  top_le : ∀ top ∈ w.frames.head?, top.outputLength ≤ w.output.size ∧ top.flagDepth ≤ w.flagDepth
  rows_le : (w.flagDepth + 1) * q.symbols.featureCount ≤ w.cells.size
  inRange : w.InRange ∧ ∀ top ∈ w.frames.head?, (w.rewind top).InRange ∧ (w.rewind top).pushFlags.InRange
  routes : ∀ f below, f :: below <:+ w.frames → ∃ route, q.SpeltBy initial route (f :: below) ∧
    q.IsLegal initial route (w.branch f below.length) ∧ q.StandsFor w f route

variable {q} {initial : Option Nat} {w w' : Workspace} {top child : Frame} {below : List Frame} {b b' : Branch}
  {a : Arc} {route : Route} {k : Nat}

private theorem SpeltBy.replace_top (h : q.SpeltBy initial route (top :: below)) (top' : Frame)
    (hs : top'.state = top.state) : q.SpeltBy initial route (top' :: below) := by
  cases h with
  | root hi => exact .root (hs ▸ hi)
  | arc h hk ha ht => exact .arc h hk ha (hs.trans ht)

private theorem Follows.consumed_le (h : q.Follows b a b') :
    b.consumed ≤ b'.consumed ∧ b'.consumed ≤ b.consumed + 1 := by
  cases h with
  | symbol => exact ⟨Nat.le_succ _, Nat.le_refl _⟩
  | epsilon | flag => exact ⟨Nat.le_refl _, Nat.le_succ _⟩

private theorem Follows.consumed_le_size (h : q.Follows b a b') (hb : b.consumed ≤ q.input.size) :
    b'.consumed ≤ q.input.size := by
  cases h with
  | symbol h0 hs => exact (Array.getElem?_eq_some_iff.1 hs).1
  | epsilon | flag => exact hb

private theorem Path.consumed_le_size (h : q.Path b route b') (hb : b.consumed ≤ q.input.size) :
    b'.consumed ≤ q.input.size := by
  induction h with
  | nil => exact hb
  | cons _ hf _ ih => exact ih (hf.consumed_le_size hb)

private theorem Path.concat {b₁ : Branch} (h : q.Path b route b₁) (ha : q.graph.arc? b₁.state k = some a)
    (hf : q.Follows b₁ a b') : q.Path b (route ++ [(k, a)]) b' := by
  induction h with
  | nil => exact .cons ha hf (.nil _)
  | cons ha₁ hf₁ _ ih => exact .cons ha₁ hf₁ (ih ha hf)

private theorem IsLegal.concat (h : q.IsLegal initial route b) (ha : q.graph.arc? b.state k = some a)
    (hf : q.Follows b a b') (hi : b'.idle ≤ q.limits.maxDepth) : q.IsLegal initial (route ++ [(k, a)]) b' := by
  obtain ⟨state, hs, hp, -⟩ := h
  exact ⟨state, hs, hp.concat ha hf, hi⟩

/-- A path carries the environment behind the flags of its route. -/
private theorem Path.env_eq (h : q.Path b route b') :
    b'.env = (q.flagsTaken b.consumed route).foldl (fun env f => f.apply env) b.env := by
  induction h with
  | nil => rfl
  | cons _ hf _ ih =>
    rw [ih]
    cases hf with
    | epsilon h0 => rw [flagsTaken, if_pos h0]; rfl
    | symbol h0 hs => rw [flagsTaken, if_neg h0, if_pos hs]; rfl
    | flag h0 hs hflag => rw [flagsTaken, if_neg h0, if_neg hs, hflag]; rfl

private theorem IsLegal.standsFor {f : Frame} {height : Nat} (h : q.IsLegal initial route (w.branch f height)) :
    q.StandsFor w f route := by
  obtain ⟨state, -, hp, -⟩ := h
  exact ⟨hp.output_eq, hp.env_eq⟩

private theorem IsLegal.consumed_le_size (h : q.IsLegal initial route b) : b.consumed ≤ q.input.size := by
  obtain ⟨state, -, hp, -⟩ := h
  exact hp.consumed_le_size (Nat.zero_le _)

/-! ### What an arc does to the marks -/

private theorem marks_of_enter {state label consumed : Nat} (h : q.enter w state label consumed = .moved w') :
    w'.featureCount = w.featureCount ∧ w'.flagDepth = w.flagDepth := by
  unfold enter at h
  split at h
  · cases h
  · cases h
    split <;> exact ⟨rfl, rfl⟩

private theorem flagDepth_pushFlags_le (w : Workspace) : w.pushFlags.flagDepth ≤ w.flagDepth + 1 := by
  unfold pushFlags
  split
  · exact Nat.le_succ _
  · exact Nat.le_refl _

/-- An arc takes at most one row. -/
private theorem marks_of_follow {f : Frame} (h : q.follow w f a = .moved w') :
    w'.featureCount = w.featureCount ∧ w'.flagDepth ≤ w.flagDepth + 1 := by
  rw [follow_eq] at h
  split at h
  · obtain ⟨hf, hd⟩ := marks_of_enter h
    exact ⟨hf, by omega⟩
  split at h
  · obtain ⟨hf, hd⟩ := marks_of_enter h
    exact ⟨hf, by omega⟩
  split at h
  · cases h
    exact ⟨rfl, Nat.le_succ _⟩
  · rename_i flag _
    split at h
    · cases h
    split at h
    · obtain ⟨hf, hd⟩ := marks_of_enter h
      have heq := applyFlag_eq w.pushFlags flag
      have hle := flagDepth_pushFlags_le w
      rw [heq] at hf hd
      refine ⟨hf.trans (featureCount_pushFlags w), ?_⟩
      rw [hd]
      exact hle
    · cases h
      exact ⟨rfl, Nat.le_succ _⟩

/-! ### What the search keeps -/

/-- The frames are in order, and each of them ends a legal path. -/
structure IsTracked (q : Query) (initial : Option Nat) (w : Workspace) : Prop where
  stacked : w.Stacked
  width_eq : w.featureCount = q.symbols.featureCount
  rises : w.frames.IsChain Frame.Rises
  routes : ∀ f below, f :: below <:+ w.frames → ∃ route, q.SpeltBy initial route (f :: below) ∧
    q.IsLegal initial route (w.branch f below.length)

private theorem isTracked_start (q : Query) (initial : Option Nat) : q.IsTracked initial (q.start initial) where
  stacked := q.stacked_start initial
  width_eq := rfl
  rises := by
    cases initial with
    | none => exact .nil
    | some state => exact .singleton _
  routes f below hf := by
    cases initial with
    | none => simp [start, reset] at hf
    | some state =>
      have heq : f = { state } ∧ below = [] := by
        simpa [start, reset, List.suffix_cons_iff] using hf
      obtain ⟨rfl, rfl⟩ := heq
      refine ⟨[], .root rfl, state, rfl, ?_, Nat.zero_le _⟩
      rw [List.length_nil, branch_start]
      exact .nil _

private theorem IsTracked.exists_route (h : q.IsTracked initial w) (hw : w.frames = top :: below) :
    ∃ route, q.SpeltBy initial route (top :: below) ∧ q.IsLegal initial route (w.branch top below.length) :=
  h.routes top below (hw ▸ List.suffix_rfl)

private theorem IsTracked.replace_top (h : q.IsTracked initial w) (hw : w.frames = top :: below) (top' : Frame)
    (hs : top'.state = top.state) (hc : top'.consumed = top.consumed) (ho : top'.outputLength = top.outputLength)
    (hd : top'.flagDepth = top.flagDepth) : q.IsTracked initial { w with frames := top' :: below } where
  stacked := h.stacked.replace_top hw top' hc ho hd
  width_eq := h.width_eq
  rises := by
    have hr := h.rises
    rw [hw, List.isChain_cons] at hr
    refine List.isChain_cons.2 ⟨fun g hg => ?_, hr.2⟩
    have hrises := hr.1 g hg
    exact ⟨hc ▸ hrises.consumed, ho ▸ hrises.outputLength, hd ▸ hrises.flagDepth⟩
  routes f rest hf := by
    rcases List.suffix_cons_iff.1 hf with heq | hf
    · cases heq
      obtain ⟨route, hspelt, hlegal⟩ := h.exists_route hw
      refine ⟨route, hspelt.replace_top top' hs, ?_⟩
      have hbranch : w.branch top' below.length = w.branch top below.length := by
        simp only [branch, hs, hc, ho, hd]
      exact hbranch ▸ hlegal
    · exact h.routes f rest (by rw [hw]; exact hf.trans (List.suffix_cons ..))

private theorem IsTracked.pop (h : q.IsTracked initial w) (hw : w.frames = top :: below) :
    q.IsTracked initial { w with frames := below } where
  stacked := h.stacked.pop hw
  width_eq := h.width_eq
  rises := by
    have hr := h.rises
    rw [hw, List.isChain_cons] at hr
    exact hr.2
  routes f rest hf := h.routes f rest (by rw [hw]; exact hf.trans (List.suffix_cons ..))

private theorem IsTracked.cut (h : q.IsTracked initial w) (hw : w.frames = top :: below) (depth : Nat)
    (hle : top.flagDepth ≤ depth) (hd : depth ≤ w.flagDepth) :
    q.IsTracked initial { w with output := w.output.shrink top.outputLength, flagDepth := depth } := by
  have hst := h.stacked.cut hw depth hle hd
  refine ⟨hst, h.width_eq, h.rises, fun f rest hf => ?_⟩
  obtain ⟨route, hspelt, hlegal⟩ := h.routes f rest hf
  have hkeeps : Keeps { w with output := w.output.shrink top.outputLength, flagDepth := depth } w := keeps_of_shrink hd
  have hbranch := hkeeps.branch_eq (hst.holds f (hf.subset (List.mem_cons_self ..))) rest.length
  exact ⟨route, hspelt, hbranch ▸ hlegal⟩

/-- A frame that an arc leads to goes on with the route of the frame below it. -/
private theorem IsTracked.entered (h : q.IsTracked initial w) (hw : w.frames = top :: below) (he : Entered w w' child)
    (hk : top.nextArc = k + 1) (ha : q.graph.arc? top.state k = some a)
    (hf : q.Follows (w.branch top below.length) a (w'.branch child w.frames.length))
    (hi : (w'.branch child w.frames.length).idle ≤ q.limits.maxDepth) (ho : top.outputLength = w.output.size)
    (hd : top.flagDepth = w.flagDepth) (hmarks : w'.featureCount = w.featureCount ∧ w'.flagDepth ≤ w.flagDepth + 1) :
    q.IsTracked initial w' where
  stacked := h.stacked.entered he
  width_eq := hmarks.1.trans h.width_eq
  rises := by
    rw [he.frames]
    refine List.isChain_cons.2 ⟨fun g hg => ?_, h.rises⟩
    rw [hw, List.head?_cons, Option.mem_some_iff] at hg
    subst hg
    have hlower : (w.branch top below.length).output.length = top.outputLength := by
      rw [branch, List.length_take, Array.length_toList, ho, Nat.min_self]
    have hupper : (w'.branch child w.frames.length).output.length = child.outputLength := by
      rw [branch, List.length_take, Array.length_toList, he.outputLength, Nat.min_self]
    have hlength := congrArg List.length hf.output_eq
    rw [List.length_append, hlower, hupper] at hlength
    have hone : ([q.write a].filter q.isVisible).length ≤ 1 := List.length_filter_le ..
    have hle := he.keeps.flagDepth_le
    have hchild := he.flagDepth
    refine ⟨hf.consumed_le, ⟨by omega, by omega⟩, by omega, by omega⟩
  routes f rest hsuf := by
    rw [he.frames] at hsuf
    rcases List.suffix_cons_iff.1 hsuf with heq | hsuf
    · cases heq
      obtain ⟨route, hspelt, hlegal⟩ := h.exists_route hw
      have hstate : child.state = a.target := hf.state_eq
      refine ⟨route ++ [(k, a)], ?_, hlegal.concat ha hf hi⟩
      rw [hw]
      exact .arc hspelt hk ha hstate
    · obtain ⟨route, hspelt, hlegal⟩ := h.routes f rest hsuf
      have hbranch := he.keeps.branch_eq (h.stacked.holds f (hsuf.subset (List.mem_cons_self ..))) rest.length
      exact ⟨route, hspelt, hbranch ▸ hlegal⟩

private theorem IsTracked.advance (h : q.IsTracked initial w) (hw : w.frames = top :: below)
    (hs : q.advance w top below = .moved w') : q.IsTracked initial w' := by
  unfold Query.advance at hs
  cases ha : q.graph.arc? top.state top.nextArc with
  | none =>
    rw [ha] at hs
    cases hs
    exact h.pop hw
  | some a =>
    rw [ha] at hs
    have htop := h.stacked.holds top (by rw [hw]; exact List.mem_cons_self ..)
    -- `back` is the workspace cut at the marks of the frame, with the arc marked as taken
    obtain ⟨back, hback⟩ : ∃ back, back =
      ({ w with frames := { top with nextArc := top.nextArc + 1 } :: below } : Workspace).rewind top := ⟨_, rfl⟩
    have hframes : back.frames = { top with nextArc := top.nextArc + 1 } :: below := by rw [hback]; rfl
    have htracked : q.IsTracked initial back := by
      rw [hback]
      exact (h.replace_top hw { top with nextArc := top.nextArc + 1 } rfl rfl rfl rfl).cut rfl top.flagDepth
        (Nat.le_refl _) htop.flagDepth_le
    have ho : top.outputLength = back.output.size := by
      rw [hback]
      show _ = (w.output.shrink top.outputLength).size
      rw [Array.size_shrink, Nat.min_eq_left htop.outputLength_le]
    have hd : top.flagDepth = back.flagDepth := by rw [hback]; rfl
    have hclimbing := h.stacked.climbing
    rw [hw] at hclimbing
    simp only [← hback] at hs
    have hsim := q.follow_simulates a (by rw [hframes]; rfl) hclimbing.1 ho hd htracked.stacked.allocated
    have hmarks := marks_of_follow hs
    rw [hs] at hsim
    generalize htried : q.tryArc (back.branch top below.length) a = tried at hsim
    cases hsim with
    | skipped => exact htracked
    | entered he =>
      obtain ⟨hf, hi⟩ := tryArc_eq_ok.1 htried
      exact htracked.entered hframes he rfl ha hf hi ho hd hmarks

private theorem IsTracked.moved (h : q.IsTracked initial w) (hs : q.step w = .moved w') : q.IsTracked initial w' := by
  unfold step at hs
  cases hw : w.frames with
  | nil =>
    rw [hw] at hs
    cases hs
  | cons top below =>
    simp only [hw] at hs
    split at hs
    · cases hs
    · exact (h.replace_top hw { top with visited := true } rfl rfl rfl rfl).advance rfl hs

private theorem IsTracked.result {v : List Nat} (h : q.IsTracked initial w) (hs : q.step w = .result v w') :
    q.IsTracked initial w' := by
  unfold step at hs
  cases hw : w.frames with
  | nil =>
    rw [hw] at hs
    cases hs
  | cons top below =>
    have htop := h.stacked.holds top (by rw [hw]; exact List.mem_cons_self ..)
    simp only [hw] at hs
    split at hs
    · cases hs
      exact (h.replace_top hw { top with visited := true } rfl rfl rfl rfl).cut rfl w.flagDepth htop.flagDepth_le
        (Nat.le_refl _)
    · exact absurd hs (q.advance_ne_result _ _ _ _ _)

/-- A search that has failed has no frames any more. -/
private theorem IsTracked.stopped (h : q.IsTracked initial w) : q.IsTracked initial { w with frames := [] } where
  stacked := ⟨trivial, .nil, .nil, fun f hf => absurd hf List.not_mem_nil, h.stacked.allocated⟩
  width_eq := h.width_eq
  rises := .nil
  routes f below hf := by cases List.suffix_nil.1 hf

private theorem IsTracked.next (h : q.IsTracked initial w) : q.IsTracked initial (q.next w).2 := by
  fun_induction Query.next q w with
  | case1 => exact h
  | case2 w v rest hs => exact h.result hs
  | case3 => exact h.stopped
  | case4 w rest hs ih => exact ih (h.moved hs)

/-! ### The course of a search -/

/-- The workspace behind so many calls of `next`. -/
def afterCalls (q : Query) (w : Workspace) : Nat → Workspace
  | 0 => w
  | n + 1 => afterCalls q (q.next w).2 n

/-- The workspace behind so many steps of a call.  Behind its last step the call does nothing more. -/
def afterSteps (q : Query) (w : Workspace) : Nat → Workspace
  | 0 => w
  | n + 1 =>
    match q.step w with
    | .moved rest => afterSteps q rest n
    | _ => w

private theorem IsTracked.afterCalls (h : q.IsTracked initial w) (n : Nat) :
    q.IsTracked initial (q.afterCalls w n) := by
  induction n generalizing w with
  | zero => exact h
  | succ n ih => exact ih h.next

private theorem IsTracked.afterSteps (h : q.IsTracked initial w) (n : Nat) :
    q.IsTracked initial (q.afterSteps w n) := by
  induction n generalizing w with
  | zero => exact h
  | succ n ih =>
    unfold Query.afterSteps
    split
    · rename_i rest hs
      exact ih (h.moved hs)
    · exact h

private theorem IsTracked.height_le (h : q.IsTracked initial w) :
    w.frames.length ≤ q.input.size + q.limits.maxDepth + 1 := by
  cases hw : w.frames with
  | nil => exact Nat.zero_le _
  | cons top below =>
    obtain ⟨route, -, hlegal⟩ := h.exists_route hw
    have hconsumed := hlegal.consumed_le_size
    obtain ⟨-, -, -, hidle⟩ := hlegal
    simp only [branch] at hconsumed hidle
    rw [List.length_cons]
    omega

private theorem IsTracked.isDisciplined (h : q.IsTracked initial w) : q.IsDisciplined initial w where
  height_le := h.height_le
  rises := h.rises
  top_le top htop := by
    have hholds := h.stacked.holds top (List.mem_of_mem_head? htop)
    exact ⟨hholds.outputLength_le, hholds.flagDepth_le⟩
  rows_le := h.width_eq ▸ h.stacked.allocated
  inRange := by
    refine ⟨h.stacked.allocated.inRange, fun top htop => ?_⟩
    have hholds := h.stacked.holds top (List.mem_of_mem_head? htop)
    have hal : (w.rewind top).IsAllocated := h.stacked.allocated.restoreFlags hholds.flagDepth_le
    exact ⟨hal.inRange, hal.pushFlags.inRange⟩
  routes f below hf := by
    obtain ⟨route, hspelt, hlegal⟩ := h.routes f below hf
    exact ⟨route, hspelt, hlegal, hlegal.standsFor⟩

/-- Wherever a search is in the course of its calls, its stacks are in order: the number of frames is bounded, the marks
rise by at most one, all rows are there, and each frame stands for the route that it ends. -/
theorem isDisciplined_after (q : Query) (initial : Option Nat) (calls steps : Nat) :
    q.IsDisciplined initial (q.afterSteps (q.afterCalls (q.start initial) calls) steps) :=
  (((q.isTracked_start initial).afterCalls calls).afterSteps steps).isDisciplined

end Query

end LexicalTransducer
