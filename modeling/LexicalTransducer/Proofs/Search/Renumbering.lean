import LexicalTransducer.Proofs.Net.Renumbering
import LexicalTransducer.Proofs.Search.Correspondence
import LexicalTransducer.Proofs.Search.Mirror

/-!
# Searches under other numbers

A search that has other numbers for the labels and the states of another one follows the images of its paths
(`Renumbered.corresponds`), as long as the numbers keep apart the labels on arcs and in the input, and the states.  So
both have the same outputs up to order, but for the numbers of the labels (`Renumbered.sameResults`).
-/

namespace LexicalTransducer

/-! ### Results that are shown otherwise -/

private theorem error_mem_map_iff {α β : Type} {f : α → β} {items : List (Except LookupError α)} {e : LookupError} :
    .error e ∈ items.map (·.map f) ↔ .error e ∈ items := by
  rw [List.mem_map]
  constructor
  · rintro ⟨item, hitem, he⟩
    cases item with
    | error e' =>
      cases he
      exact hitem
    | ok v => cases he
  · intro h
    exact ⟨.error e, h, rfl⟩

theorem SameResults.map {α β : Type} (f : α → β) {items items' : List (Except LookupError α)}
    (h : SameResults items items') : SameResults (items.map (·.map f)) (items'.map (·.map f)) where
  error_iff := by simp only [error_mem_map_iff, h.error_iff]
  perm hn := (h.perm fun e he => hn e (error_mem_map_iff.2 he)).map _

/-- Outputs that are alike through `out` are the same once `out` has been applied. -/
private theorem Findings.Alike.sameResults_map {out : List Nat → List Nat} {a a' : Findings} (h : a.Alike out a') :
    SameResults (a.items.map (·.map out)) a'.items := by
  have hid : Alike id { a with outputs := a.outputs.map out } a' :=
    ⟨h.error_iff, fun hn => by
      rw [List.map_id]
      exact h.perm hn⟩
  have hitems : a.items.map (·.map out) = Findings.items { a with outputs := a.outputs.map out } := by
    simp only [items, List.map_append, List.map_map]
    rfl
  rw [hitems]
  exact hid.sameResults

namespace Query

private theorem Path.mem_arcs {q : Query} {b b' : Branch} {route : Route} (h : q.Path b route b') :
    ∀ e ∈ route, e.2 ∈ q.graph.arcs.toList := by
  induction h with
  | nil => exact fun e he => absurd he List.not_mem_nil
  | cons ha _ _ ih =>
    intro e he
    rcases List.mem_cons.1 he with rfl | he
    · exact Graph.mem_arcs_of_arc? ha
    · exact ih e he

/-- The search `q'` is the search `q` under other numbers.  They keep the `known` labels apart, which are those on
arcs and in the input, and they keep the `states` apart. -/
structure Renumbered (r : Renumbering) (known states : Set Nat) (q q' : Query) : Prop where
  epsilon : r.code Symbol.epsilonId = Symbol.epsilonId
  epsilon_mem : Symbol.epsilonId ∈ known
  code : Set.InjOn r.code known
  arcs : ∀ a ∈ q.graph.arcs.toList, a.upper ∈ known ∧ a.lower ∈ known ∧ a.target ∈ states
  outgoing : ∀ state ∈ states, ((q.graph.outgoing state).map r.arc).Perm (q'.graph.outgoing (r.state state))
  accepts : ∀ state ∈ states, q'.graph.accepts (r.state state) = q.graph.accepts state
  flag : ∀ id ∈ known, q'.symbols.flag? (r.code id) = q.symbols.flag? id
  featureCount : q'.symbols.featureCount = q.symbols.featureCount
  input : q'.input = q.input.map r.code
  input_mem : ∀ id ∈ q.input, id ∈ known
  tape : q'.tape = q.tape
  limits : q'.limits = q.limits

/-- The path `b'` is the path `b` under other numbers. -/
structure MovedTo (r : Renumbering) (states : Set Nat) (b b' : Branch) : Prop where
  state_mem : b.state ∈ states
  eq : b' = { b with state := r.state b.state, output := b.output.map r.code }

namespace Renumbered

variable {r : Renumbering} {known states : Set Nat} {q q' : Query} {a : Arc} {b b' : Branch}

private theorem read_arc (h : Renumbered r known states q q') (a : Arc) : q'.read (r.arc a) = r.code (q.read a) := by
  unfold read
  rw [h.tape]
  cases q.tape <;> rfl

private theorem write_arc (h : Renumbered r known states q q') (a : Arc) : q'.write (r.arc a) = r.code (q.write a) := by
  unfold write
  rw [h.tape]
  cases q.tape <;> rfl

private theorem labels_mem (h : Renumbered r known states q q') (ha : a ∈ q.graph.arcs.toList) :
    q.read a ∈ known ∧ q.write a ∈ known := by
  obtain ⟨hupper, hlower, -⟩ := h.arcs a ha
  unfold read write
  cases q.tape with
  | upper => exact ⟨hupper, hlower⟩
  | lower => exact ⟨hlower, hupper⟩

private theorem code_eq_epsilon_iff (h : Renumbered r known states q q') {id : Nat} (hid : id ∈ known) :
    r.code id = Symbol.epsilonId ↔ id = Symbol.epsilonId :=
  r.code_eq_epsilon_iff h.epsilon h.epsilon_mem h.code hid

private theorem isVisible_code (h : Renumbered r known states q q') {id : Nat} (hid : id ∈ known) :
    q'.isVisible (r.code id) = q.isVisible id := by
  rw [Bool.eq_iff_iff, isVisible_iff, isVisible_iff, h.flag id hid, ne_eq, ne_eq, h.code_eq_epsilon_iff hid]

private theorem input_eq_iff (h : Renumbered r known states q q') (k : Nat) {id : Nat} (hid : id ∈ known) :
    q'.input[k]? = some (r.code id) ↔ q.input[k]? = some id := by
  rw [h.input, Array.getElem?_map]
  cases hk : q.input[k]? with
  | none => simp
  | some next =>
    rw [Option.map_some, Option.some.injEq, Option.some.injEq]
    exact h.code.eq_iff (h.input_mem next (Array.mem_of_getElem? hk)) hid

private theorem movedTo_goOn (h : Renumbered r known states q q') (b : Branch) (ha : a ∈ q.graph.arcs.toList)
    (consumed : Nat) (env : Array Nat) (idle : Nat) : MovedTo r states (q.goOn b a consumed env idle)
      (q'.goOn { b with state := r.state b.state, output := b.output.map r.code } (r.arc a) consumed env idle) where
  state_mem := (h.arcs a ha).2.2
  eq := by
    simp only [goOn, h.write_arc, h.isVisible_code (h.labels_mem ha).2]
    by_cases hv : q.isVisible (q.write a) = true
    · rw [if_pos hv, if_pos hv, List.map_append, List.map_singleton]
      rfl
    · rw [if_neg hv, if_neg hv]
      rfl

private theorem limited (h : Renumbered r known states q q') (hb : MovedTo r states b b') :
    TriedAlike (MovedTo r states) (some (q.limited b)) (some (q'.limited b')) := by
  obtain ⟨hmem, rfl⟩ := hb
  unfold Query.limited
  rw [h.limits]
  split
  · exact .stopped _ _
  · exact .followed ⟨hmem, rfl⟩

/-- An arc under other numbers does the same to a path under other numbers. -/
private theorem tryArc (h : Renumbered r known states q q') (hb : MovedTo r states b b')
    (ha : a ∈ q.graph.arcs.toList) : TriedAlike (MovedTo r states) (q.tryArc b a) (q'.tryArc b' (r.arc a)) := by
  obtain ⟨hread, hwrite⟩ := h.labels_mem ha
  obtain ⟨-, rfl⟩ := hb
  refine tryArc_rel ?_ ?_ ?_ ?_ .skipped (h.limited (h.movedTo_goOn b ha _ _ _))
    (h.limited (h.movedTo_goOn b ha _ _ _))
  · rw [h.read_arc, h.code_eq_epsilon_iff hread]
  · rw [h.read_arc]
    exact h.input_eq_iff _ hread
  · -- two labels under other numbers differ exactly if they did
    rw [h.read_arc, h.write_arc, h.code.eq_iff hwrite hread]
  · rw [h.read_arc, h.flag _ hread]
    cases q.symbols.flag? (q.read a) with
    | none => exact .inl ⟨rfl, rfl⟩
    | some f => exact .inr ⟨f, f, rfl, rfl, rfl, .stopped _ _, h.limited (h.movedTo_goOn b ha _ _ _)⟩

theorem corresponds (h : Renumbered r known states q q') :
    Corresponds q q' (MovedTo r states) r.arc (List.map r.code) where
  output hb := by
    obtain ⟨-, rfl⟩ := hb
    rfl
  arrives hb := by
    obtain ⟨hmem, rfl⟩ := hb
    simp only [Arrives, h.accepts _ hmem, h.input, Array.size_map]
  outgoing hb := by
    obtain ⟨hmem, rfl⟩ := hb
    exact h.outgoing _ hmem
  tryArc hb ha := h.tryArc hb (Graph.mem_arcs_of_outgoing ha)

/-- Under other numbers a lookup has the same outputs up to order, but for the numbers of the labels, or both lookups
end with an error. -/
theorem sameResults (h : Renumbered r known states q q') {initial : Option Nat}
    (hinitial : ∀ state, initial = some state → state ∈ states) :
    SameResults ((q.items (q.start initial)).map (·.map (List.map r.code)))
      (q'.items (q'.start (initial.map r.state))) := by
  rw [items_start, items_start]
  apply Findings.Alike.sameResults_map
  apply h.corresponds.findings_alike
  cases initial with
  | none => exact .none
  | some state =>
    refine .some ⟨hinitial state rfl, ?_⟩
    simp only [root, h.featureCount, List.map_nil]

/-- The labels of an output stand on arcs. -/
theorem mem_known (h : Renumbered r known states q q') {initial : Option Nat} {v : List Nat}
    (hv : .ok v ∈ q.items (q.start initial)) : ∀ id ∈ v, id ∈ known := by
  obtain ⟨route, ⟨b, ⟨state, -, hp, -⟩, -⟩, rfl⟩ := exists_isAccepting hv
  intro id hid
  obtain ⟨e, he, rfl⟩ := List.mem_map.1 (List.mem_filter.1 hid).1
  exact (h.labels_mem (hp.mem_arcs e he)).2

end Renumbered

end Query

end LexicalTransducer
