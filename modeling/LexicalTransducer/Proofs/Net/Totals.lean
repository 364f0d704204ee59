import LexicalTransducer.Proofs.Net.Arcs

/-!
# What the lines of a states section add up to

A line without a source has the source of the latest line before it that gives an arc (`latestSource?`).  With that,
each line gives an arc or none by itself (`StateLine.Gives`), and a section holds the arcs of its lines, the states
they mention and the states they make accepting, whatever the order of the lines is (`totals_of_steps`).
-/

namespace LexicalTransducer

namespace StateLine

/-- The source of the first of these lines that gives an arc.  The lines are taken backwards, so it is the source
that a line behind them may leave out.  A line without a source passes on the one before it. -/
def latestSource? : List StateLine → Option Int
  | [] => none
  | explicit source upper lower target _ :: earlier =>
    if 0 ≤ upper ∧ 0 ≤ lower ∧ 0 ≤ target then some source else latestSource? earlier
  | sentinel :: earlier | implied .. :: earlier => latestSource? earlier

/-- The arc is the one that a line gives behind these earlier lines. -/
def Gives (earlier : List StateLine) (l : StateLine) (a : Arc) : Prop :=
  match l with
  | sentinel => False
  | explicit source upper lower target _ =>
    source = a.source ∧ upper = a.upper ∧ lower = a.lower ∧ target = a.target
  | implied upper lower target =>
    latestSource? earlier.reverse = some (a.source : Int) ∧
      upper = a.upper ∧ lower = a.lower ∧ target = a.target

/-- Some line gives the arc. -/
def GiveArc (lines : List StateLine) (a : Arc) : Prop :=
  ∃ earlier l later, lines = earlier ++ l :: later ∧ l.Gives earlier a

/-- Some line spells the state out as its source. -/
def NameSource (lines : List StateLine) (state : Nat) : Prop :=
  ∃ upper lower target final, explicit state upper lower target final ∈ lines

/-- Some line that spells the state out as its source has a final flag. -/
def NameFinal (lines : List StateLine) (state : Nat) : Prop :=
  ∃ upper lower target, explicit state upper lower target true ∈ lines

section
variable {lines : List StateLine} {l : StateLine} {a : Arc} {state : Nat}

private theorem giveArc_nil : ¬ GiveArc [] a := by
  rintro ⟨earlier, l, later, h, -⟩
  simp at h

private theorem giveArc_append_singleton : GiveArc (lines ++ [l]) a ↔ GiveArc lines a ∨ l.Gives lines a := by
  constructor
  · rintro ⟨earlier, x, later, heq, hx⟩
    rcases append_singleton_eq_iff.1 heq with ⟨rfl, rfl, -⟩ | ⟨rest, hlines, -⟩
    · exact .inr hx
    · exact .inl ⟨earlier, x, rest, hlines, hx⟩
  · rintro (⟨earlier, x, later, hlines, hx⟩ | hl)
    · exact ⟨earlier, x, later ++ [l], append_singleton_eq_iff.2 (.inr ⟨later, hlines, rfl⟩), hx⟩
    · exact ⟨lines, l, [], rfl, hl⟩

private theorem nameSource_append_singleton :
    NameSource (lines ++ [l]) state ↔ NameSource lines state ∨ NameSource [l] state := by
  simp only [NameSource, List.mem_append, exists_or]

private theorem nameFinal_append_singleton :
    NameFinal (lines ++ [l]) state ↔ NameFinal lines state ∨ NameFinal [l] state := by
  simp only [NameFinal, List.mem_append, exists_or]

private theorem nameSource_explicit {source upper lower target : Int} {final : Bool} :
    NameSource [explicit source upper lower target final] state ↔ source = state := by
  simp [NameSource, eq_comm]

private theorem nameFinal_explicit {source upper lower target : Int} {final : Bool} :
    NameFinal [explicit source upper lower target final] state ↔ final = true ∧ source = state := by
  simp [NameFinal, eq_comm, and_comm]

end

end StateLine

open StateLine

namespace StatesSection

/-- A section holds what its lines add up to. -/
structure Totals (s : StatesSection) (lines : List StateLine) : Prop where
  mem_arcs : ∀ a, a ∈ s.arcs ↔ GiveArc lines a
  mem_mentioned : ∀ q, q ∈ s.mentioned ↔ NameSource lines q ∨ ∃ a, GiveArc lines a ∧ a.target = q
  mem_accepting : ∀ q, q ∈ s.accepting ↔ NameFinal lines q
  lastSource : s.lastSource.map Nat.cast = latestSource? lines.reverse

variable {b : SymbolTable.Builder} {s s' : StatesSection} {l : StateLine} {lines : List StateLine}

/-! ### One line -/

theorem state_eq_ok {n : Int} {q : Nat} : NetField.state n = .ok q ↔ n = q ∧ n < Text.wordCount32 := by
  unfold NetField.state
  cases hw : Text.word32? n with
  | none =>
    simp only [reduceCtorEq, false_iff]
    intro h
    rw [SymbolTable.Builder.word32?_eq_some.2 h] at hw
    cases hw
  | some k =>
    rw [Except.ok.injEq, ← SymbolTable.Builder.word32?_eq_some, hw, Option.some.injEq]

private theorem eq_of_resolve {code : Int} {id : Nat} (h : b.resolve code = .ok id) : code = id := by
  unfold SymbolTable.Builder.resolve at h
  split at h
  · cases h
  · rename_i k hk
    split at h
    · cases h
      exact (SymbolTable.Builder.word32?_eq_some.1 hk).1
    · cases h

/-- An arc says what its line says. -/
theorem eq_of_arc {source : Nat} {upper lower target : Int} {a : Arc} (h : arc b source upper lower target = .ok a) :
    a.source = source ∧ upper = a.upper ∧ lower = a.lower ∧ target = a.target := by
  simp only [arc, bind_eq_ok] at h
  obtain ⟨q, hq, u, hu, v, hv, ha⟩ := h
  cases ha
  exact ⟨rfl, eq_of_resolve hu, eq_of_resolve hv, (state_eq_ok.1 hq).1⟩

private theorem arc_iff {a a' : Arc} : ((a.source : Int) = a'.source ∧ (a.upper : Int) = a'.upper ∧
    (a.lower : Int) = a'.lower ∧ (a.target : Int) = a'.target) ↔ a' = a := by
  simp only [Int.natCast_inj, Arc.ext_iff, eq_comm]

theorem mem_arcs_addArc {orientation : Orientation} {a a' : Arc} :
    a' ∈ (s.addArc orientation a).arcs ↔ a' ∈ s.arcs ∨ a' = orientation.orient a := by
  show a' ∈ s.arcs.insert (orientation.orient a) ↔ _
  rw [Std.ExtTreeSet.mem_insert, Std.LawfulEqOrd.compare_eq_iff_eq, or_comm, eq_comm]

theorem mem_mentioned_addArc {orientation : Orientation} {a : Arc} {q : Nat} :
    q ∈ (s.addArc orientation a).mentioned ↔ q ∈ s.mentioned ∨ a.target = q := by
  show q ∈ s.mentioned.insert a.target ↔ _
  rw [Std.ExtTreeSet.mem_insert, Std.LawfulEqOrd.compare_eq_iff_eq, or_comm]

theorem mem_mentioned_addSource {source q : Nat} {final : Bool} :
    q ∈ (s.addSource source final).mentioned ↔ q ∈ s.mentioned ∨ source = q := by
  show q ∈ s.mentioned.insert source ↔ _
  rw [Std.ExtTreeSet.mem_insert, Std.LawfulEqOrd.compare_eq_iff_eq, or_comm]

theorem mem_accepting_addSource {source q : Nat} {final : Bool} :
    q ∈ (s.addSource source final).accepting ↔ q ∈ s.accepting ∨ final = true ∧ source = q := by
  unfold addSource
  cases final with
  | false => simp
  | true =>
    simp only [↓reduceIte, true_and]
    rw [Std.ExtTreeSet.mem_insert, Std.LawfulEqOrd.compare_eq_iff_eq, or_comm]

/-- What one more line adds. -/
private theorem Totals.append (h : s.Totals lines) (harcs : ∀ a, a ∈ s'.arcs ↔ a ∈ s.arcs ∨ l.Gives lines a)
    (hmentioned : ∀ q, q ∈ s'.mentioned ↔
      q ∈ s.mentioned ∨ NameSource [l] q ∨ ∃ a, l.Gives lines a ∧ a.target = q)
    (haccepting : ∀ q, q ∈ s'.accepting ↔ q ∈ s.accepting ∨ NameFinal [l] q)
    (hlast : s'.lastSource.map Nat.cast = latestSource? (l :: lines.reverse)) : s'.Totals (lines ++ [l]) where
  mem_arcs a := by
    rw [harcs, h.mem_arcs, giveArc_append_singleton]
  mem_mentioned q := by
    rw [hmentioned, h.mem_mentioned, nameSource_append_singleton]
    simp only [giveArc_append_singleton, or_and_right, exists_or]
    exact or_or_or_comm
  mem_accepting q := by
    rw [haccepting, h.mem_accepting, nameFinal_append_singleton]
  lastSource := by
    rw [hlast, List.reverse_append]
    rfl

private theorem Totals.adds (h : s.Totals lines) (ha : Adds .normal b s l s') : s'.Totals (lines ++ [l]) := by
  cases l with
  | sentinel =>
    rw [adds_sentinel_iff.1 ha]
    refine h.append ?_ ?_ ?_ h.lastSource <;> simp [Gives, NameSource, NameFinal]
  | implied upper lower target =>
    obtain ⟨source, a, hs, hstep, rfl⟩ := adds_implied_iff.1 ha
    obtain ⟨rfl, rfl, rfl, rfl⟩ := eq_of_arc hstep
    have hlatest : latestSource? lines.reverse = some (a.source : Int) := by
      rw [← h.lastSource, hs]
      rfl
    have hgives : ∀ a', Gives lines (.implied a.upper a.lower a.target) a' ↔ a' = a := by
      intro a'
      rw [← arc_iff, Gives, hlatest, Option.some.injEq]
    refine h.append ?_ ?_ ?_ ?_
    · intro a'
      rw [mem_arcs_addArc, hgives]
      rfl
    · intro q
      simp only [mem_mentioned_addArc, hgives, exists_eq_left]
      simp [NameSource]
    · intro q
      show q ∈ s.accepting ↔ _
      simp [NameFinal]
    · rw [latestSource?, hlatest]
      rfl
  | explicit source upper lower target final =>
    obtain ⟨q, hq, hstep⟩ := adds_explicit_iff.1 ha
    obtain ⟨rfl, -⟩ := state_eq_ok.1 hq
    by_cases hgives : 0 ≤ upper ∧ 0 ≤ lower ∧ 0 ≤ target
    · rw [if_pos hgives] at hstep
      obtain ⟨a, hstep, rfl⟩ := hstep
      obtain ⟨rfl, rfl, rfl, rfl⟩ := eq_of_arc hstep
      have hgives' : ∀ a', Gives lines (.explicit a.source a.upper a.lower a.target final) a' ↔ a' = a :=
        fun a' => arc_iff
      refine h.append ?_ ?_ ?_ ?_
      · intro a'
        rw [mem_arcs_addArc, hgives']
        rfl
      · intro q
        simp only [mem_mentioned_addArc, mem_mentioned_addSource, hgives', exists_eq_left, nameSource_explicit,
          Int.natCast_inj, or_assoc]
      · intro q
        rw [nameFinal_explicit, Int.natCast_inj, ← mem_accepting_addSource]
        rfl
      · rw [latestSource?, if_pos hgives]
        rfl
    · rw [if_neg hgives] at hstep
      rw [hstep]
      -- a label or target that is negative is that of no arc
      have hnone : ∀ a, ¬ Gives lines (.explicit q upper lower target final) a := by
        rintro a ⟨-, rfl, rfl, rfl⟩
        exact hgives ⟨Int.natCast_nonneg _, Int.natCast_nonneg _, Int.natCast_nonneg _⟩
      refine h.append ?_ ?_ ?_ ?_
      · intro a
        simp only [hnone, or_false]
        rfl
      · intro q
        simp only [mem_mentioned_addSource, hnone, false_and, exists_false, or_false, nameSource_explicit,
          Int.natCast_inj]
      · intro q
        rw [nameFinal_explicit, Int.natCast_inj, mem_accepting_addSource]
      · rw [latestSource?, if_neg hgives]
        exact h.lastSource

private theorem totals_start : Totals {} [] := by
  refine ⟨fun a => ?_, fun q => ?_, fun q => ?_, rfl⟩
  · simp [giveArc_nil]
  · simp [giveArc_nil, NameSource]
  · simp [NameFinal]

/-- The section that the lines make holds what they add up to. -/
theorem totals_of_steps (h : Steps (Adds .normal b) {} lines s) : s.Totals lines :=
  h.accumulate (fun _ _ _ _ => Totals.adds) totals_start

end StatesSection

end LexicalTransducer
