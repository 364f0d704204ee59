import LexicalTransducer.Net.States
import LexicalTransducer.Proofs.Lists
import LexicalTransducer.Proofs.Outcome
import LexicalTransducer.Proofs.Symbol.Alphabet

/-!
# Which lines make a states section

The lines of a states section are accepted exactly if each of them can stand there by itself and a line that leaves
its source out comes behind one that gives an arc (`exists_steps_adds_iff`).
-/

namespace LexicalTransducer

namespace StateLine

/-- A line that gives an arc: every one without a source, and one with a source if nothing on it is negative. -/
def GivesArc : StateLine → Prop
  | sentinel => False
  | explicit _ upper lower target _ => 0 ≤ upper ∧ 0 ≤ lower ∧ 0 ≤ target
  | implied .. => True

/-- A line of two or three fields. -/
def LeavesOutSource : StateLine → Prop
  | implied .. => True
  | sentinel | explicit .. => False

end StateLine

/-- The labels are epsilon or defined, and the target is a 32-bit word. -/
structure IsArc (codes : List Int) (upper lower target : Int) : Prop where
  upper : upper = 0 ∨ upper ∈ codes
  lower : lower = 0 ∨ lower ∈ codes
  target : 0 ≤ target ∧ target < Text.wordCount32

namespace StateLine

/-- A line that can stand in a states section by itself. -/
def IsAdmissible (codes : List Int) : StateLine → Prop
  | sentinel => True
  | explicit source upper lower target _ =>
    (0 ≤ source ∧ source < Text.wordCount32) ∧
      (0 ≤ upper ∧ 0 ≤ lower ∧ 0 ≤ target → IsArc codes upper lower target)
  | implied upper lower target => IsArc codes upper lower target

end StateLine

/-- The lines of a states section for an alphabet with these codes. -/
structure IsStates (codes : List Int) (lines : List StateLine) : Prop where
  admissible : ∀ l ∈ lines, l.IsAdmissible codes
  implied : ∀ earlier l later, lines = earlier ++ l :: later → l.LeavesOutSource → ∃ x ∈ earlier, x.GivesArc

private theorem isStates_append_singleton {codes : List Int} {lines : List StateLine} {l : StateLine} :
    IsStates codes (lines ++ [l]) ↔
      IsStates codes lines ∧ l.IsAdmissible codes ∧ (l.LeavesOutSource → ∃ x ∈ lines, x.GivesArc) := by
  constructor
  · intro h
    refine ⟨⟨fun x hx => h.admissible x (List.mem_append_left _ hx), ?_⟩, ?_, h.implied lines l [] rfl⟩
    · rintro earlier x later rfl
      exact h.implied earlier x (later ++ [l]) (by simp)
    · exact h.admissible l (List.mem_append_right _ (List.mem_singleton_self l))
  · rintro ⟨h, hl, himplied⟩
    refine ⟨?_, ?_⟩
    · intro x hx
      rcases List.mem_append.1 hx with hx | hx
      · exact h.admissible x hx
      · rw [List.mem_singleton.1 hx]
        exact hl
    · intro earlier x later heq
      rcases append_singleton_eq_iff.1 heq with ⟨rfl, rfl, -⟩ | ⟨rest, hlines, -⟩
      · exact himplied
      · exact h.implied earlier x rest hlines

namespace StatesSection

def Adds (orientation : Orientation) (b : SymbolTable.Builder) (s : StatesSection) (l : StateLine)
    (s' : StatesSection) : Prop :=
  s.add orientation b l = .ok s'

variable {orientation : Orientation} {b : SymbolTable.Builder} {codes : List Int} {s s' : StatesSection}
  {l : StateLine}

theorem adds_sentinel_iff : Adds orientation b s .sentinel s' ↔ s' = s := by
  unfold Adds add
  rw [Except.ok.injEq, eq_comm]

theorem adds_implied_iff {upper lower target : Int} : Adds orientation b s (.implied upper lower target) s' ↔
    ∃ source a, s.lastSource = some source ∧ arc b source upper lower target = .ok a ∧
      s' = s.addArc orientation a := by
  unfold Adds
  cases hs : s.lastSource with
  | none => simp [add, hs]
  | some source =>
    simp only [add, hs, bind_eq_ok]
    constructor
    · rintro ⟨a, ha, h⟩
      cases h
      exact ⟨source, a, rfl, ha, rfl⟩
    · rintro ⟨_, a, h, ha, rfl⟩
      cases h
      exact ⟨a, ha, rfl⟩

theorem adds_explicit_iff {source upper lower target : Int} {final : Bool} :
    Adds orientation b s (.explicit source upper lower target final) s' ↔
      ∃ q, NetField.state source = .ok q ∧ if 0 ≤ upper ∧ 0 ≤ lower ∧ 0 ≤ target then
        ∃ a, arc b q upper lower target = .ok a ∧ s' = (s.addSource q final).addArc orientation a
      else s' = s.addSource q final := by
  have hneg : (upper < 0 ∨ lower < 0 ∨ target < 0) ↔ ¬ (0 ≤ upper ∧ 0 ≤ lower ∧ 0 ≤ target) := by omega
  unfold Adds
  simp only [add, bind_eq_ok, hneg]
  refine exists_congr fun q => and_congr_right fun _ => ?_
  by_cases hgives : 0 ≤ upper ∧ 0 ≤ lower ∧ 0 ≤ target
  · rw [if_neg (not_not_intro hgives), if_pos hgives, bind_eq_ok]
    exact exists_congr fun a => and_congr_right fun _ => ⟨fun h => (Except.ok.inj h).symm, fun h => h ▸ rfl⟩
  · rw [if_pos hgives, if_neg hgives]
    exact ⟨fun h => (Except.ok.inj h).symm, fun h => h ▸ rfl⟩

private theorem exists_state_iff {n : Int} : (∃ q, NetField.state n = .ok q) ↔ 0 ≤ n ∧ n < Text.wordCount32 := by
  unfold NetField.state
  constructor
  · rintro ⟨q, hq⟩
    split at hq
    · rename_i k hk
      obtain ⟨rfl, hlt⟩ := SymbolTable.Builder.word32?_eq_some.1 hk
      exact ⟨Int.natCast_nonneg k, hlt⟩
    · cases hq
  · rintro ⟨hnonneg, hlt⟩
    obtain ⟨k, rfl⟩ := Int.eq_ofNat_of_zero_le hnonneg
    rw [SymbolTable.Builder.word32?_eq_some.2 ⟨rfl, hlt⟩]
    exact ⟨k, rfl⟩

section
variable (hsymbols : ∀ id : Nat, id ∈ b.symbols ↔ (id : Int) ∈ codes)
  (hcodes : ∀ c ∈ codes, 0 ≤ c ∧ c < Text.wordCount32)
include hsymbols hcodes

private theorem exists_resolve_iff (code : Int) : (∃ id, b.resolve code = .ok id) ↔ code = 0 ∨ code ∈ codes := by
  unfold SymbolTable.Builder.resolve
  constructor
  · rintro ⟨id, hid⟩
    split at hid
    · cases hid
    · rename_i k hk
      obtain ⟨rfl, -⟩ := SymbolTable.Builder.word32?_eq_some.1 hk
      split at hid
      · rename_i hdef
        rcases hdef with rfl | hmem
        · exact .inl rfl
        · exact .inr ((hsymbols k).1 hmem)
      · cases hid
  · intro h
    have hrange : 0 ≤ code ∧ code < Text.wordCount32 := by
      rcases h with rfl | hmem
      · exact ⟨Int.le_refl 0, by decide⟩
      · exact hcodes code hmem
    obtain ⟨k, rfl⟩ := Int.eq_ofNat_of_zero_le hrange.1
    have hdef : k = Symbol.epsilonId ∨ k ∈ b.symbols := by
      rcases h with h | hmem
      · exact .inl (Int.natCast_eq_zero.1 h)
      · exact .inr ((hsymbols k).2 hmem)
    rw [SymbolTable.Builder.word32?_eq_some.2 ⟨rfl, hrange.2⟩]
    exact ⟨k, if_pos hdef⟩

private theorem exists_arc_iff (source : Nat) (upper lower target : Int) :
    (∃ a, arc b source upper lower target = .ok a) ↔ IsArc codes upper lower target := by
  have hu := exists_resolve_iff hsymbols hcodes upper
  have hl := exists_resolve_iff hsymbols hcodes lower
  have ht := exists_state_iff (n := target)
  simp only [arc, bind_eq_ok]
  constructor
  · rintro ⟨a, q, hq, u, hru, v, hrl, -⟩
    exact ⟨hu.1 ⟨u, hru⟩, hl.1 ⟨v, hrl⟩, ht.1 ⟨q, hq⟩⟩
  · rintro ⟨h1, h2, h3⟩
    obtain ⟨u, hru⟩ := hu.2 h1
    obtain ⟨v, hrl⟩ := hl.2 h2
    obtain ⟨q, hq⟩ := ht.2 h3
    exact ⟨_, q, hq, u, hru, v, hrl, rfl⟩

private theorem exists_adds_iff : (∃ s', Adds orientation b s l s') ↔
    l.IsAdmissible codes ∧ (l.LeavesOutSource → s.lastSource.isSome) := by
  cases l with
  | sentinel => exact ⟨fun _ => ⟨trivial, False.elim⟩, fun _ => ⟨s, adds_sentinel_iff.2 rfl⟩⟩
  | implied upper lower target =>
    constructor
    · rintro ⟨s', h⟩
      obtain ⟨source, a, hs, ha, -⟩ := adds_implied_iff.1 h
      exact ⟨(exists_arc_iff hsymbols hcodes source upper lower target).1 ⟨a, ha⟩,
        fun _ => Option.isSome_of_eq_some hs⟩
    · rintro ⟨h, hlast⟩
      obtain ⟨source, hs⟩ := Option.isSome_iff_exists.1 (hlast trivial)
      obtain ⟨a, ha⟩ := (exists_arc_iff hsymbols hcodes source upper lower target).2 h
      exact ⟨_, adds_implied_iff.2 ⟨source, a, hs, ha, rfl⟩⟩
  | explicit source upper lower target final =>
    constructor
    · rintro ⟨s', h⟩
      obtain ⟨q, hq, h⟩ := adds_explicit_iff.1 h
      refine ⟨⟨exists_state_iff.1 ⟨q, hq⟩, fun hgives => ?_⟩, False.elim⟩
      rw [if_pos hgives] at h
      obtain ⟨a, ha, -⟩ := h
      exact (exists_arc_iff hsymbols hcodes q upper lower target).1 ⟨a, ha⟩
    · rintro ⟨⟨hsource, harc⟩, -⟩
      obtain ⟨q, hq⟩ := exists_state_iff.2 hsource
      by_cases hgives : 0 ≤ upper ∧ 0 ≤ lower ∧ 0 ≤ target
      · obtain ⟨a, ha⟩ := (exists_arc_iff hsymbols hcodes q upper lower target).2 (harc hgives)
        exact ⟨_, adds_explicit_iff.2 ⟨q, hq, by rw [if_pos hgives]; exact ⟨a, ha, rfl⟩⟩⟩
      · exact ⟨_, adds_explicit_iff.2 ⟨q, hq, by rw [if_neg hgives]⟩⟩

end

/-- There is a latest source as soon as some line has given an arc. -/
private theorem lastSource_of_adds (h : Adds orientation b s l s') :
    s'.lastSource.isSome ↔ s.lastSource.isSome ∨ l.GivesArc := by
  cases l with
  | sentinel =>
    rw [adds_sentinel_iff.1 h]
    exact (or_iff_left id).symm
  | implied upper lower target =>
    obtain ⟨source, a, -, -, rfl⟩ := adds_implied_iff.1 h
    exact ⟨fun _ => .inr trivial, fun _ => rfl⟩
  | explicit source upper lower target final =>
    obtain ⟨q, -, h⟩ := adds_explicit_iff.1 h
    by_cases hgives : 0 ≤ upper ∧ 0 ≤ lower ∧ 0 ≤ target
    · rw [if_pos hgives] at h
      obtain ⟨a, -, rfl⟩ := h
      exact ⟨fun _ => .inr hgives, fun _ => rfl⟩
    · rw [if_neg hgives] at h
      rw [h]
      exact (or_iff_left hgives).symm

private theorem lastSource_of_steps {lines : List StateLine} (h : Steps (Adds orientation b) {} lines s) :
    s.lastSource.isSome ↔ ∃ l ∈ lines, l.GivesArc := by
  refine h.accumulate (P := fun s lines => s.lastSource.isSome ↔ ∃ l ∈ lines, l.GivesArc) ?_ (by simp)
  intro s lines l s' ih ha
  rw [lastSource_of_adds ha, ih]
  simp only [List.mem_append, List.mem_singleton, or_and_right, exists_or, exists_eq_left]

/-- The lines of a states section are accepted, and no others. -/
theorem exists_steps_adds_iff (hsymbols : ∀ id : Nat, id ∈ b.symbols ↔ (id : Int) ∈ codes)
    (hcodes : ∀ c ∈ codes, 0 ≤ c ∧ c < Text.wordCount32) {lines : List StateLine} :
    (∃ s, Steps (Adds orientation b) {} lines s) ↔ IsStates codes lines := by
  -- an implied source depends on the lines before, so the induction takes off the last one
  induction lines using List.reverseRecOn with
  | nil =>
    refine ⟨fun _ => ⟨by simp, ?_⟩, fun _ => ⟨{}, .nil _⟩⟩
    intro earlier l later h
    exact absurd h.symm (by simp)
  | append_singleton lines l ih =>
    rw [isStates_append_singleton]
    constructor
    · rintro ⟨s, h⟩
      obtain ⟨s₁, hs, ha⟩ := Steps.snoc_iff.1 h
      obtain ⟨hl, himplied⟩ := (exists_adds_iff hsymbols hcodes).1 ⟨s, ha⟩
      exact ⟨ih.1 ⟨s₁, hs⟩, hl, fun h => (lastSource_of_steps hs).1 (himplied h)⟩
    · rintro ⟨h, hl, himplied⟩
      obtain ⟨s₁, hs⟩ := ih.2 h
      have hlast : l.LeavesOutSource → s₁.lastSource.isSome := fun h => (lastSource_of_steps hs).2 (himplied h)
      obtain ⟨s, ha⟩ := (exists_adds_iff hsymbols hcodes).2 ⟨hl, hlast⟩
      exact ⟨s, Steps.snoc_iff.2 ⟨s₁, hs, ha⟩⟩

end StatesSection

end LexicalTransducer
