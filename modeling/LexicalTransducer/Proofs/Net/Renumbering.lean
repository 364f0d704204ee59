import LexicalTransducer.Proofs.Net.Sections
import LexicalTransducer.Proofs.Symbol.Renumbering

/-!
# Nets under other numbers

A net may be written with other codes for its symbols and other numbers for its states (`Renumbering`).  What the
lines of states then add up to is the image of what they added up to before, arc by arc and state by state
(`StatesSection.isImage_of_steps`).  Whether the numbers stay apart is no matter here.
-/

namespace LexicalTransducer

/-- Other codes for symbols and other numbers for states. -/
structure Renumbering where
  code : Nat → Nat
  state : Nat → Nat

namespace Renumbering

variable (r : Renumbering)

/-- A line of the states section under other numbers.  Negative fields stay as they are. -/
def line : StateLine → StateLine
  | .sentinel => .sentinel
  | .explicit source upper lower target final =>
    .explicit (renumberField r.state source) (renumberField r.code upper) (renumberField r.code lower)
      (renumberField r.state target) final
  | .implied upper lower target =>
    .implied (renumberField r.code upper) (renumberField r.code lower) (renumberField r.state target)

def arc (a : Arc) : Arc where
  source := r.state a.source
  upper := r.code a.upper
  lower := r.code a.lower
  target := r.state a.target

private theorem arc_orient (orientation : Orientation) (a : Arc) :
    r.arc (orientation.orient a) = orientation.orient (r.arc a) := by
  cases orientation <;> rfl

/-- Where epsilon stays what it is, no other label becomes epsilon. -/
theorem code_eq_epsilon_iff {known : Set Nat} (hepsilon : r.code Symbol.epsilonId = Symbol.epsilonId)
    (hmem : Symbol.epsilonId ∈ known) (hcode : Set.InjOn r.code known) {id : Nat} (hid : id ∈ known) :
    r.code id = Symbol.epsilonId ↔ id = Symbol.epsilonId := by
  rw [← hcode.eq_iff hid hmem, hepsilon]

end Renumbering

namespace StatesSection

/-- The section `s'` holds the arcs and states of `s` under other numbers, and nothing else. -/
structure IsImage (r : Renumbering) (s s' : StatesSection) : Prop where
  mem_arcs : ∀ a', a' ∈ s'.arcs ↔ ∃ a ∈ s.arcs, r.arc a = a'
  mem_mentioned : ∀ q', q' ∈ s'.mentioned ↔ ∃ q ∈ s.mentioned, r.state q = q'
  mem_accepting : ∀ q', q' ∈ s'.accepting ↔ ∃ q ∈ s.accepting, r.state q = q'
  lastSource : s'.lastSource = s.lastSource.map r.state

variable {r : Renumbering} {orientation : Orientation} {b b' : SymbolTable.Builder} {s s' t t' : StatesSection}
  {l : StateLine} {lines : List StateLine} {a a' : Arc}

private theorem isImage_start : IsImage r {} {} where
  mem_arcs a' := by simp
  mem_mentioned q' := by simp
  mem_accepting q' := by simp
  lastSource := rfl

private theorem IsImage.addSource (h : s.IsImage r s') (source : Nat) (final : Bool) :
    (s.addSource source final).IsImage r (s'.addSource (r.state source) final) where
  mem_arcs := h.mem_arcs
  mem_mentioned q' := by
    simp only [mem_mentioned_addSource, h.mem_mentioned, or_and_right, exists_or, exists_eq_left']
  mem_accepting q' := by
    simp only [mem_accepting_addSource, h.mem_accepting, or_and_right, exists_or, and_assoc, exists_and_left,
      exists_eq_left']
  lastSource := h.lastSource

private theorem IsImage.addArc (h : s.IsImage r s') (orientation : Orientation) (a : Arc) :
    (s.addArc orientation a).IsImage r (s'.addArc orientation (r.arc a)) where
  mem_arcs a' := by
    simp only [mem_arcs_addArc, h.mem_arcs, or_and_right, exists_or, exists_eq_left, ← r.arc_orient,
      eq_comm (a := a')]
  mem_mentioned q' := by
    simp only [mem_mentioned_addArc, h.mem_mentioned, or_and_right, exists_or, exists_eq_left']
    rfl
  mem_accepting := h.mem_accepting
  lastSource := rfl

/-- The arc of a line under other numbers is the arc of the line under other numbers. -/
private theorem arc_renumbered {source : Nat} {upper lower target : Int} (h : arc b source upper lower target = .ok a)
    (h' : arc b' (r.state source) (renumberField r.code upper) (renumberField r.code lower)
      (renumberField r.state target) = .ok a') : a' = r.arc a := by
  obtain ⟨rfl, rfl, rfl, rfl⟩ := eq_of_arc h
  obtain ⟨hsource, hupper, hlower, htarget⟩ := eq_of_arc h'
  simp only [renumberField_natCast, Int.natCast_inj] at hupper hlower htarget
  exact Arc.ext hsource hupper.symm hlower.symm htarget.symm

/-- One more line under other numbers. -/
private theorem IsImage.adds (h : s.IsImage r s') (ha : Adds orientation b s l t)
    (ha' : Adds orientation b' s' (r.line l) t') : t.IsImage r t' := by
  cases l with
  | sentinel =>
    rw [adds_sentinel_iff.1 ha, adds_sentinel_iff.1 ha']
    exact h
  | implied upper lower target =>
    obtain ⟨source, a, hs, harc, rfl⟩ := adds_implied_iff.1 ha
    obtain ⟨source', a', hs', harc', rfl⟩ := adds_implied_iff.1 ha'
    rw [h.lastSource, hs] at hs'
    cases hs'
    rw [arc_renumbered harc harc']
    exact h.addArc orientation a
  | explicit source upper lower target final =>
    obtain ⟨q, hq, hstep⟩ := adds_explicit_iff.1 ha
    obtain ⟨q', hq', hstep'⟩ := adds_explicit_iff.1 ha'
    obtain ⟨rfl, -⟩ := state_eq_ok.1 hq
    obtain rfl : r.state q = q' := Int.natCast_inj.1 (state_eq_ok.1 hq').1
    -- what is negative stays negative, so both lines give an arc or none does
    simp only [renumberField_nonneg] at hstep'
    by_cases hgives : 0 ≤ upper ∧ 0 ≤ lower ∧ 0 ≤ target
    · rw [if_pos hgives] at hstep hstep'
      obtain ⟨a, harc, rfl⟩ := hstep
      obtain ⟨a', harc', rfl⟩ := hstep'
      rw [arc_renumbered harc harc']
      exact (h.addSource q final).addArc orientation a
    · rw [if_neg hgives] at hstep hstep'
      rw [hstep, hstep']
      exact h.addSource q final

theorem isImage_of_steps (h : Steps (Adds orientation b) {} lines s)
    (h' : Steps (Adds orientation b') {} (lines.map r.line) s') : s.IsImage r s' :=
  h.lockstep (R := IsImage r) (f := r.line) (fun _ _ _ _ _ _ hx ha ha' => hx.adds ha ha') h' isImage_start

end StatesSection

end LexicalTransducer
