import LexicalTransducer.Proofs.Search.Routes

/-!
# A search in the other direction

A path that gives the output `v` for some input can be followed with the tapes exchanged and `v` as the input, and
it gives the input back (`mem_items_opposite`).  What may keep the opposite search from it is an error only: a flag
on one tape alone is skipped over in one direction and mismatched in the other, and arcs that consume nothing are
not the same ones in both directions.
-/

namespace LexicalTransducer

def Tape.opposite : Tape → Tape
  | .upper => .lower
  | .lower => .upper

namespace Query

def opposite (q : Query) (input : List Nat) : Query :=
  { q with input := input.toArray, tape := q.tape.opposite }

/-- The path `m` of the opposite search has consumed what the path `b` has emitted, and emitted what it has
consumed. -/
structure Mirrors (q : Query) (b m : Branch) : Prop where
  state : m.state = b.state
  env : m.env = b.env
  consumed : m.consumed = b.output.length
  output : m.output = q.input.toList.take b.consumed

/-- No symbol of the input is a flag. -/
def IsUnflagged (q : Query) : Prop :=
  ∀ id ∈ q.input.toList, q.symbols.flag? id = none

variable {q : Query}

private theorem read_opposite (v : List Nat) (a : Arc) : (q.opposite v).read a = q.write a := by
  unfold read write opposite
  cases q.tape <;> rfl

private theorem write_opposite (v : List Nat) (a : Arc) : (q.opposite v).write a = q.read a := by
  unfold read write opposite
  cases q.tape <;> rfl

private theorem isVisible_opposite (v : List Nat) : (q.opposite v).isVisible = q.isVisible := rfl

theorem isVisible_iff {label : Nat} :
    q.isVisible label = true ↔ label ≠ Symbol.epsilonId ∧ q.symbols.flag? label = none := by
  simp only [isVisible, Bool.and_eq_true, bne_iff_ne, Option.isNone_iff_eq_none]

theorem isVisible_of_mem_outputOf {route : Route} {id : Nat} (h : id ∈ q.outputOf route) :
    q.isVisible id = true :=
  (List.mem_filter.1 h).2

theorem getElem?_input (k : Nat) : q.input[k]? = q.input.toList[k]? :=
  Array.getElem?_toList.symm

/-- An arc consumes its label if that is visible, and nothing else. -/
private theorem Follows.take_consumed {b b' : Branch} {a : Arc} (h : q.Follows b a b') (hin : q.IsUnflagged) :
    q.input.toList.take b'.consumed = q.input.toList.take b.consumed ++ [q.read a].filter q.isVisible ∧
      b'.consumed = b.consumed + ([q.read a].filter q.isVisible).length := by
  have hnone : q.isVisible (q.read a) = false → [q.read a].filter q.isVisible = [] := by
    intro hv
    rw [List.filter_cons_of_neg (ne_true_of_eq_false hv), List.filter_nil]
  cases h with
  | epsilon h0 =>
    have hv : q.isVisible (q.read a) = false := by
      rw [← Bool.not_eq_true, isVisible_iff]
      exact fun hv => hv.1 h0
    rw [hnone hv]
    exact ⟨(List.append_nil _).symm, rfl⟩
  | symbol h0 hs =>
    rw [getElem?_input] at hs
    have hv : q.isVisible (q.read a) = true := isVisible_iff.2 ⟨h0, hin _ (List.mem_of_getElem? hs)⟩
    rw [List.filter_cons_of_pos hv, List.filter_nil]
    refine ⟨?_, rfl⟩
    show q.input.toList.take (b.consumed + 1) = _
    rw [List.take_add_one, hs]
    rfl
  | flag h0 hs hf hw ht =>
    have hv : q.isVisible (q.read a) = false := by
      rw [← Bool.not_eq_true, isVisible_iff, hf]
      exact fun hv => absurd hv.2 (Option.some_ne_none _)
    rw [hnone hv]
    exact ⟨(List.append_nil _).symm, rfl⟩

/-- An arc that the search follows can be followed by the opposite search, unless it is mismatched there. -/
private theorem Follows.exists_opposite {b b' m : Branch} {a : Arc} {v : List Nat} (h : q.Follows b a b')
    (hm : q.Mirrors b m) (hin : q.IsUnflagged) (hv : b'.output <+: v) (hvis : ∀ id ∈ v, q.isVisible id = true)
    (hn : ¬ (q.opposite v).Mismatched m a) : ∃ m', (q.opposite v).Follows m a m' ∧ m'.env = b'.env := by
  have hread : (q.opposite v).read a = q.write a := read_opposite v a
  have hwrite : (q.opposite v).write a = q.read a := write_opposite v a
  have hnext : q.isVisible (q.write a) = true → (q.opposite v).input[m.consumed]? = some (q.write a) := by
    intro hvw
    have hout := h.output_eq
    rw [List.filter_cons_of_pos hvw, List.filter_nil] at hout
    obtain ⟨rest, rfl⟩ := hv
    rw [getElem?_input, hm.consumed, hout]
    simp [opposite]
  have hconsumed : (q.opposite v).input[m.consumed]? = some (q.write a) → q.isVisible (q.write a) = true := by
    rw [getElem?_input]
    exact fun hs => hvis _ (List.mem_of_getElem? hs)
  -- what the opposite search does with the arc depends on the label that was written
  by_cases hε : q.write a = Symbol.epsilonId
  · have henv : b'.env = b.env := by
      cases h with
      | epsilon => rfl
      | symbol => rfl
      | flag h0 _ _ hw _ => exact absurd (hw ▸ hε) h0
    exact ⟨_, .epsilon (by rw [hread]; exact hε), hm.env.trans henv.symm⟩
  cases hflag : q.symbols.flag? (q.write a) with
  | none =>
    have henv : b'.env = b.env := by
      cases h with
      | epsilon => rfl
      | symbol => rfl
      | flag _ _ hf hw _ =>
        rw [← hw, hflag] at hf
        cases hf
    refine ⟨_, .symbol (by rw [hread]; exact hε) ?_, hm.env.trans henv.symm⟩
    rw [hread]
    exact hnext (isVisible_iff.2 ⟨hε, hflag⟩)
  | some f =>
    have hunread : (q.opposite v).input[m.consumed]? ≠ some ((q.opposite v).read a) := by
      rw [hread]
      intro hs
      have := (isVisible_iff.1 (hconsumed hs)).2
      rw [hflag] at this
      cases this
    -- the flag stands on the other tape too, or it would be mismatched now
    have hsame : q.read a = q.write a := by
      by_contra hne
      exact hn ⟨by rw [hread]; exact hε, hunread, by rw [hread]; exact Option.isSome_of_eq_some hflag,
        by rw [hread, hwrite]; exact hne⟩
    cases h with
    | epsilon h0 => exact absurd (hsame ▸ h0) hε
    | symbol h0 hs =>
      rw [getElem?_input] at hs
      have := hin _ (List.mem_of_getElem? hs)
      rw [hsame, hflag] at this
      cases this
    | @flag f' h0 hs hf hw ht =>
      rw [hsame, hflag] at hf
      cases hf
      refine ⟨_, .flag (by rw [hread]; exact hε) hunread (by rw [hread]; exact hflag)
        (by rw [hread, hwrite]; exact hsame) (by rw [hm.env]; exact ht), ?_⟩
      show f.apply m.env = f.apply b.env
      rw [hm.env]

private theorem Follows.mirror {b b' m : Branch} {a : Arc} {v : List Nat} (h : q.Follows b a b')
    (hm : q.Mirrors b m) (hin : q.IsUnflagged) (hv : b'.output <+: v) (hvis : ∀ id ∈ v, q.isVisible id = true)
    (hn : ¬ (q.opposite v).Mismatched m a) : ∃ m', (q.opposite v).Follows m a m' ∧ q.Mirrors b' m' := by
  obtain ⟨m', hf, henv⟩ := h.exists_opposite hm hin hv hvis hn
  have hunflagged : (q.opposite v).IsUnflagged := fun id hid => (isVisible_iff.1 (hvis id hid)).2
  refine ⟨m', hf, hf.state_eq.trans h.state_eq.symm, henv, ?_, ?_⟩
  · rw [(hf.take_consumed hunflagged).2, hm.consumed, h.output_eq, List.length_append, read_opposite,
      isVisible_opposite]
  · rw [hf.output_eq, hm.output, (h.take_consumed hin).1, write_opposite, isVisible_opposite]

/-- A whole path in both directions, where no error stops the opposite search. -/
private theorem Path.mirror {b b' m : Branch} {route : Route} {v : List Nat} (h : q.Path b route b')
    (hm : q.Mirrors b m) (hin : q.IsUnflagged) (hv : b'.output <+: v) (hvis : ∀ id ∈ v, q.isVisible id = true)
    (hi : m.idle ≤ q.limits.maxDepth)
    (hfree : ¬ ((q.opposite v).explore q.graph.outgoing m).error?.isSome) :
    ∃ m', (q.opposite v).Path m route m' ∧ m'.idle ≤ q.limits.maxDepth ∧ q.Mirrors b' m' := by
  induction h generalizing m with
  | nil b => exact ⟨m, .nil m, hi, hm⟩
  | @cons b b₁ b' k a route ha hf hp ih =>
    -- no path of the opposite search from `m` on runs into an arc that stops it
    have hgood : ∀ route' m', (q.opposite v).Path m route' m' → m'.idle ≤ q.limits.maxDepth →
        ∀ k a, q.graph.arc? m'.state k = some a →
          ¬ ((q.opposite v).Mismatched m' a ∨ (q.opposite v).Exceeds m' a) :=
      fun route' m' hp' hi' k a ha hstop =>
        hfree ((explore_error? (q := q.opposite v) hi).2 ⟨route', m', hp', hi', k, a, ha, hstop⟩)
    have ham : q.graph.arc? m.state k = some a := by rw [hm.state]; exact ha
    have hstop := not_or.1 (hgood [] m (.nil m) hi k a ham)
    have hv₁ : b₁.output <+: v := by
      rw [hp.output_eq] at hv
      exact (List.prefix_append _ _).trans hv
    obtain ⟨m₁, hf₁, hm₁⟩ := hf.mirror hm hin hv₁ hvis hstop.1
    have hi₁ : m₁.idle ≤ q.limits.maxDepth := hf₁.idle_le_of_not_exceeds hi hstop.2
    have hfree₁ : ¬ ((q.opposite v).explore q.graph.outgoing m₁).error?.isSome := by
      intro herror
      obtain ⟨route', m', hp', hi', k', a', ha', hs'⟩ := (explore_error? (q := q.opposite v) hi₁).1 herror
      exact hgood _ m' (.cons ham hf₁ hp') hi' k' a' ha' hs'
    obtain ⟨m', hp', hend⟩ := ih hm₁ hv hi₁ hfree₁
    exact ⟨m', .cons ham hf₁ hp', hend⟩

/-- Where a search gives an output, the opposite search for this output gives the input, or it ends with an
error. -/
theorem mem_items_opposite {initial : Option Nat} {v : List Nat} (hin : q.IsUnflagged)
    (hv : .ok v ∈ q.items (q.start initial))
    (hnone : ∀ e, .error e ∉ (q.opposite v).items ((q.opposite v).start initial)) :
    .ok q.input.toList ∈ (q.opposite v).items ((q.opposite v).start initial) := by
  obtain ⟨route, ⟨b, hb, harr⟩, rfl⟩ := exists_isAccepting hv
  cases initial with
  | none => exact absurd hb not_isLegal_none
  | some state =>
    obtain ⟨hp, -⟩ := isLegal_some.1 hb
    have hout : b.output = q.outputOf route := hp.output_eq
    have hroot : q.Mirrors (q.root state) ((q.opposite (q.outputOf route)).root state) :=
      ⟨rfl, rfl, rfl, rfl⟩
    have hfree : ¬ ((q.opposite (q.outputOf route)).findings (some state)).error?.isSome :=
      fun h => (not_exists.2 hnone) (exists_error_items_start.2 h)
    obtain ⟨m, hpm, him, hm⟩ := hp.mirror hroot hin (by rw [hout]) (fun id => isVisible_of_mem_outputOf)
      (Nat.zero_le _) hfree
    have harrm : (q.opposite (q.outputOf route)).Arrives m := by
      refine ⟨?_, ?_⟩
      · rw [hm.consumed, hout]
        rfl
      · rw [hm.state]
        exact harr.2
    have hback : (q.opposite (q.outputOf route)).outputOf route = q.input.toList := by
      have hmo : m.output = (q.opposite (q.outputOf route)).outputOf route := hpm.output_eq
      rw [← hmo, hm.output, harr.1]
      exact List.take_length
    have := outputOf_mem_items hnone ⟨m, isLegal_some.2 ⟨hpm, him⟩, harrm⟩
    rwa [hback] at this

end Query

end LexicalTransducer
