import LexicalTransducer.Proofs.Net.Rewording

/-!
# Linked nets

Every arc of a net that is read joins two states of the net by labels with a symbol, whatever kind of line it comes
from and whichever way round it is read (`isLinked_of_ofText`).  One line more keeps this (`IsLinked.adds`).
-/

namespace LexicalTransducer

/-! ### Labels with a symbol -/

namespace SymbolTable

theorem exists_get?_iff {t : SymbolTable} {id : Nat} :
    (∃ s, t.get? id = some s) ↔ id = Symbol.epsilonId ∨ id ∈ t.symbols := by
  rw [Std.ExtTreeMap.mem_iff_isSome_getElem?]
  unfold get?
  cases t.symbols[id]? with
  | some s => simp
  | none => by_cases h : id = Symbol.epsilonId <;> simp [h]

private theorem Builder.exists_get?_of_resolve {b : Builder} {code : Int} {id : Nat} (h : b.resolve code = .ok id) :
    ∃ s, b.finish.get? id = some s := by
  rw [exists_get?_iff]
  unfold resolve at h
  split at h
  · cases h
  · split at h
    · rename_i hknown
      cases h
      exact hknown
    · cases h

end SymbolTable

/-- The arc joins two of these states by two labels with a symbol. -/
structure Arc.Joins (states : StateSet) (symbols : SymbolTable) (a : Arc) : Prop where
  source : a.source ∈ states
  target : a.target ∈ states
  upper : ∃ s, symbols.get? a.upper = some s
  lower : ∃ s, symbols.get? a.lower = some s

namespace Arc.Joins

variable {states states' : StateSet} {symbols : SymbolTable} {a : Arc}

private theorem mono (h : a.Joins states symbols) (hsub : ∀ q ∈ states, q ∈ states') : a.Joins states' symbols :=
  ⟨hsub _ h.source, hsub _ h.target, h.upper, h.lower⟩

private theorem orient (h : a.Joins states symbols) (orientation : Orientation) :
    (orientation.orient a).Joins states symbols := by
  cases orientation with
  | normal => exact h
  | invert => exact ⟨h.source, h.target, h.lower, h.upper⟩

end Arc.Joins

/-! ### The states section -/

namespace StatesSection

variable {orientation : Orientation} {b : SymbolTable.Builder} {s s' : StatesSection} {l : StateLine} {a : Arc}

/-- What is so far in a section hangs together. -/
structure IsLinked (b : SymbolTable.Builder) (s : StatesSection) : Prop where
  joins : ∀ a ∈ s.arcs, a.Joins s.mentioned b.finish
  accepting : ∀ q ∈ s.accepting, q ∈ s.mentioned
  knows : s.KnowsSource

private theorem isLinked_start : IsLinked b {} :=
  ⟨fun a ha => by simp at ha, fun q hq => by simp at hq, fun source hs => by cases hs⟩

private theorem joins_of_arc {source : Nat} {upper lower target : Int} {states : StateSet}
    (h : arc b source upper lower target = .ok a) (hsource : source ∈ states) (htarget : a.target ∈ states) :
    a.Joins states b.finish := by
  have heq := (eq_of_arc h).1
  simp only [arc, bind_eq_ok] at h
  obtain ⟨q, -, u, hu, v, hv, ha⟩ := h
  cases ha
  exact ⟨hsource, htarget, SymbolTable.Builder.exists_get?_of_resolve hu,
    SymbolTable.Builder.exists_get?_of_resolve hv⟩

/-- A state that is spelled out as a source adds no arc. -/
private theorem joins_addSource {source : Nat} {final : Bool} (h : ∀ a ∈ s.arcs, a.Joins s.mentioned b.finish) :
    ∀ a ∈ (s.addSource source final).arcs, a.Joins (s.addSource source final).mentioned b.finish :=
  fun a ha => (h a ha).mono fun _ hq => mem_mentioned_addSource.2 (.inl hq)

private theorem accepting_addSource {source : Nat} {final : Bool} (h : ∀ q ∈ s.accepting, q ∈ s.mentioned) :
    ∀ q ∈ (s.addSource source final).accepting, q ∈ (s.addSource source final).mentioned := by
  intro q hq
  rcases mem_accepting_addSource.1 hq with hq | ⟨-, rfl⟩
  · exact mem_mentioned_addSource.2 (.inl (h q hq))
  · exact mem_mentioned_addSource.2 (.inr rfl)

private theorem joins_addArc {source : Nat} {upper lower target : Int}
    (harc : arc b source upper lower target = .ok a) (hsource : source ∈ s.mentioned)
    (h : ∀ a ∈ s.arcs, a.Joins s.mentioned b.finish) :
    ∀ a' ∈ (s.addArc orientation a).arcs, a'.Joins (s.addArc orientation a).mentioned b.finish := by
  have hsub : ∀ q ∈ s.mentioned, q ∈ (s.addArc orientation a).mentioned :=
    fun q hq => mem_mentioned_addArc.2 (.inl hq)
  intro a' ha'
  rcases mem_arcs_addArc.1 ha' with ha' | rfl
  · exact (h a' ha').mono hsub
  · exact (joins_of_arc harc (hsub _ hsource) (mem_mentioned_addArc.2 (.inr rfl))).orient orientation

theorem IsLinked.adds (s : StatesSection) (l : StateLine) (s' : StatesSection) (h : s.IsLinked b)
    (ha : Adds orientation b s l s') : s'.IsLinked b := by
  have hknows := KnowsSource.adds s l s' h.knows ha
  cases l with
  | sentinel =>
    rw [adds_sentinel_iff.1 ha]
    exact h
  | implied upper lower target =>
    obtain ⟨source, a, hs, harc, rfl⟩ := adds_implied_iff.1 ha
    exact ⟨joins_addArc harc (h.knows source hs).1 h.joins,
      fun q hq => mem_mentioned_addArc.2 (.inl (h.accepting q hq)), hknows⟩
  | explicit source upper lower target final =>
    obtain ⟨q, -, ha⟩ := adds_explicit_iff.1 ha
    by_cases hgives : 0 ≤ upper ∧ 0 ≤ lower ∧ 0 ≤ target
    · rw [if_pos hgives] at ha
      obtain ⟨a, harc, rfl⟩ := ha
      have hsource : q ∈ (s.addSource q final).mentioned := mem_mentioned_addSource.2 (.inr rfl)
      exact ⟨joins_addArc harc hsource (joins_addSource h.joins),
        fun p hp => mem_mentioned_addArc.2 (.inl (accepting_addSource h.accepting p hp)), hknows⟩
    · -- a line without an arc still mentions its source
      rw [if_neg hgives] at ha
      subst ha
      exact ⟨joins_addSource h.joins, accepting_addSource h.accepting, hknows⟩

theorem isLinked_of_steps {lines : List StateLine} (h : Steps (Adds orientation b) {} lines s) : s.IsLinked b :=
  h.invariant IsLinked.adds isLinked_start

end StatesSection

/-! ### The net -/

namespace Net

variable {text : String} {orientation : Orientation} {n : Net} {ps : Properties} {b : SymbolTable.Builder}
  {s : StatesSection}

theorem mem_states_ofSections (h : s.IsLinked b) (q : Nat) :
    q ∈ (ofSections orientation ps b s).states ↔ q ∈ s.mentioned := by
  show q ∈ (s.mentioned \ s.accepting) ∪ s.accepting ↔ _
  rw [Std.ExtTreeSet.mem_union_iff, Std.ExtTreeSet.mem_diff_iff]
  have haccepting := h.accepting q
  tauto

/-- The arcs of a net join its states by labels with a symbol, and a state is either intermediate or accepting. -/
structure IsLinked (n : Net) : Prop where
  joins : ∀ a ∈ n.arcs, a.Joins n.states n.symbols
  accepting : ∀ q ∈ n.accepting, q ∈ n.states
  intermediate : ∀ q ∈ n.intermediate, q ∉ n.accepting

theorem isLinked_of_ofText (h : ofText text orientation = .ok n) : n.IsLinked := by
  obtain ⟨_, _, ps, b, s, -, -, hadds, rfl⟩ := ofText_eq_ok_iff.1 h
  have hs := StatesSection.isLinked_of_steps hadds
  refine ⟨fun a ha => ?_, fun q hq => ?_, fun q hq => ?_⟩
  · exact (hs.joins a (Std.ExtTreeSet.mem_toList.1 ha)).mono fun q hq => (mem_states_ofSections hs q).2 hq
  · exact (mem_states_ofSections hs q).2 (hs.accepting q hq)
  · exact (Std.ExtTreeSet.mem_diff_iff.1 hq).2

end Net

end LexicalTransducer
