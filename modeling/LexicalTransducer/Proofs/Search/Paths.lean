import LexicalTransducer.Proofs.Search.Recursive

/-!
# Legal paths

What a lookup is about, apart from any order of search: an arc can be followed at the end of a path (`Follows`), and
a path is a row of arcs that can be followed in turn (`Path`).  The recursive search tries exactly these arcs
(`tryArc_eq_ok`), and it stops at an arc whose flag stands opposite another label and at an idle arc too many
(`tryArc_eq_error`).
-/

namespace LexicalTransducer.Query

/-- The arcs of a path, each with its number among the arcs of the state that it leaves. -/
abbrev Route := List (Nat × Arc)

variable (q : Query)

/-- An arc that can be followed at the end of a path, and the path behind it. -/
inductive Follows (b : Branch) (a : Arc) : Branch → Prop
  | epsilon (h0 : q.read a = Symbol.epsilonId) : Follows b a (q.goOn b a b.consumed b.env (b.idle + 1))
  | symbol (h0 : q.read a ≠ Symbol.epsilonId) (hs : q.input[b.consumed]? = some (q.read a)) :
      Follows b a (q.goOn b a (b.consumed + 1) b.env b.idle)
  | flag {f : Flag} (h0 : q.read a ≠ Symbol.epsilonId) (hs : q.input[b.consumed]? ≠ some (q.read a))
      (hf : q.symbols.flag? (q.read a) = some f) (hw : q.write a = q.read a) (ht : f.test b.env = true) :
      Follows b a (q.goOn b a b.consumed (f.apply b.env) (b.idle + 1))

/-- An arc with a flag that is not consumed and that stands opposite another label. -/
structure Mismatched (b : Branch) (a : Arc) : Prop where
  ne_epsilon : q.read a ≠ Symbol.epsilonId
  not_consumed : q.input[b.consumed]? ≠ some (q.read a)
  isFlag : (q.symbols.flag? (q.read a)).isSome
  write_ne : q.write a ≠ q.read a

/-- An arc that can be followed, and that is the first idle one beyond the limit. -/
def Exceeds (b : Branch) (a : Arc) : Prop :=
  ∃ b', q.Follows b a b' ∧ b.idle = q.limits.maxDepth ∧ b'.idle = q.limits.maxDepth + 1

/-- Arcs that can be followed in turn from the end of one path to the end of another. -/
inductive Path : Branch → Route → Branch → Prop
  | nil (b : Branch) : Path b [] b
  | cons {b b₁ b' : Branch} {k : Nat} {a : Arc} {route : Route} (ha : q.graph.arc? b.state k = some a)
      (hf : q.Follows b a b₁) (hp : Path b₁ route b') : Path b ((k, a) :: route) b'

/-- A path from the initial state on which at most as many arcs as the limit allows consume nothing. -/
def IsLegal (initial : Option Nat) (route : Route) (b : Branch) : Prop :=
  ∃ state, initial = some state ∧ q.Path (q.root state) route b ∧ b.idle ≤ q.limits.maxDepth

/-- The end of a path that has consumed the whole input and come to an accepting state. -/
def Arrives (b : Branch) : Prop :=
  b.consumed = q.input.size ∧ q.graph.accepts b.state = true

instance (b : Branch) : Decidable (q.Arrives b) :=
  inferInstanceAs (Decidable (_ ∧ _))

def IsAccepting (initial : Option Nat) (route : Route) : Prop :=
  ∃ b, q.IsLegal initial route b ∧ q.Arrives b

/-- The labels of a route on the other tape, without epsilon and flags. -/
def outputOf (route : Route) : List Nat :=
  (route.map fun e => q.write e.2).filter q.isVisible

variable {q}

/-! ### One arc -/

private theorem Follows.idle_le {b b' : Branch} {a : Arc} (h : q.Follows b a b') :
    b.idle ≤ b'.idle ∧ b'.idle ≤ b.idle + 1 := by
  cases h with
  | epsilon => exact ⟨Nat.le_succ _, Nat.le_refl _⟩
  | symbol => exact ⟨Nat.le_refl _, Nat.le_succ _⟩
  | flag => exact ⟨Nat.le_succ _, Nat.le_refl _⟩

theorem Follows.state_eq {b b' : Branch} {a : Arc} (h : q.Follows b a b') : b'.state = a.target := by
  cases h <;> rfl

theorem Follows.idle_le_of_not_exceeds {b b' : Branch} {a : Arc} (h : q.Follows b a b')
    (hb : b.idle ≤ q.limits.maxDepth) (hn : ¬ q.Exceeds b a) : b'.idle ≤ q.limits.maxDepth := by
  apply Nat.le_of_not_lt
  intro hi
  have := h.idle_le
  exact hn ⟨b', h, by omega, by omega⟩

theorem Follows.output_eq {b b' : Branch} {a : Arc} (h : q.Follows b a b') :
    b'.output = b.output ++ [q.write a].filter q.isVisible := by
  have hout : ∀ consumed env idle, (q.goOn b a consumed env idle).output =
      b.output ++ [q.write a].filter q.isVisible := by
    intro consumed env idle
    simp only [goOn]
    by_cases hv : q.isVisible (q.write a) = true
    · rw [if_pos hv, List.filter_cons_of_pos hv, List.filter_nil]
    · rw [if_neg hv, List.filter_cons_of_neg hv, List.filter_nil, List.append_nil]
  cases h <;> exact hout ..

private theorem Follows.tryArc_eq {b b' : Branch} {a : Arc} (h : q.Follows b a b') :
    q.tryArc b a = some (q.limited b') := by
  unfold tryArc
  cases h with
  | epsilon h0 => rw [if_pos h0]
  | symbol h0 hs => rw [if_neg h0, if_pos hs]
  | flag h0 hs hf hw ht =>
    rw [if_neg h0, if_neg hs, hf]
    simp only [hw, ne_eq, not_true_eq_false, ↓reduceIte, ht]

private theorem Mismatched.tryArc_eq {b : Branch} {a : Arc} (h : q.Mismatched b a) :
    ∃ e, q.tryArc b a = some (.error e) := by
  obtain ⟨f, hf⟩ := Option.isSome_iff_exists.1 h.isFlag
  refine ⟨.mismatchedFlag b.state f.text, ?_⟩
  unfold tryArc
  rw [if_neg h.ne_epsilon, if_neg h.not_consumed, hf]
  exact if_pos h.write_ne

/-- An arc that a search does not skip can be followed, or it is mismatched. -/
theorem follows_or_mismatched {b : Branch} {a : Arc} {tried : Except LookupError Branch}
    (h : q.tryArc b a = some tried) :
    (∃ b', q.Follows b a b' ∧ tried = q.limited b') ∨ q.Mismatched b a ∧ ∃ e, tried = .error e := by
  unfold tryArc at h
  by_cases h0 : q.read a = Symbol.epsilonId
  · rw [if_pos h0, Option.some.injEq] at h
    exact .inl ⟨_, .epsilon h0, h.symm⟩
  rw [if_neg h0] at h
  by_cases hs : q.input[b.consumed]? = some (q.read a)
  · rw [if_pos hs, Option.some.injEq] at h
    exact .inl ⟨_, .symbol h0 hs, h.symm⟩
  rw [if_neg hs] at h
  cases hf : q.symbols.flag? (q.read a) with
  | none =>
    rw [hf] at h
    cases h
  | some f =>
    rw [hf] at h
    by_cases hw : q.write a = q.read a
    · by_cases ht : f.test b.env = true
      · simp only [hw, ne_eq, not_true_eq_false, ↓reduceIte, ht, Option.some.injEq] at h
        exact .inl ⟨_, .flag h0 hs hf hw ht, h.symm⟩
      · simp only [hw, ne_eq, not_true_eq_false, ↓reduceIte, ht, Bool.false_eq_true, reduceCtorEq] at h
    · simp only [ne_eq, hw, not_false_eq_true, ↓reduceIte, Option.some.injEq] at h
      exact .inr ⟨⟨h0, hs, by rw [hf]; rfl, hw⟩, _, h.symm⟩

theorem tryArc_eq_ok {b b' : Branch} {a : Arc} :
    q.tryArc b a = some (.ok b') ↔ q.Follows b a b' ∧ b'.idle ≤ q.limits.maxDepth := by
  constructor
  · intro h
    rcases follows_or_mismatched h with ⟨b₁, hf, h1⟩ | ⟨-, e, he⟩
    · obtain ⟨rfl, hi⟩ := q.limited_eq_ok.1 h1.symm
      exact ⟨hf, hi⟩
    · cases he
  · rintro ⟨hf, hi⟩
    rw [hf.tryArc_eq, q.limited_eq_ok.2 ⟨rfl, hi⟩]

/-- At the end of a legal path an arc stops the search if it is mismatched or one idle arc too many. -/
theorem tryArc_eq_error {b : Branch} {a : Arc} (hb : b.idle ≤ q.limits.maxDepth) :
    (∃ e, q.tryArc b a = some (.error e)) ↔ q.Mismatched b a ∨ q.Exceeds b a := by
  constructor
  · rintro ⟨e, h⟩
    rcases follows_or_mismatched h with ⟨b', hf, h1⟩ | ⟨hm, -⟩
    · obtain ⟨-, hi⟩ := q.limited_eq_error.1 h1.symm
      have := hf.idle_le
      exact .inr ⟨b', hf, by omega, by omega⟩
    · exact .inl hm
  · rintro (hm | ⟨b', hf, -, hi⟩)
    · exact hm.tryArc_eq
    · exact ⟨_, by rw [hf.tryArc_eq, q.limited_eq_error.2 ⟨rfl, by omega⟩]⟩

/-! ### Paths -/

theorem outputOf_cons (e : Nat × Arc) (route : Route) :
    q.outputOf (e :: route) = [q.write e.2].filter q.isVisible ++ q.outputOf route := by
  rw [outputOf, outputOf, List.map_cons, ← List.singleton_append, List.filter_append]

theorem Path.idle_le {b b' : Branch} {route : Route} (h : q.Path b route b') : b.idle ≤ b'.idle := by
  induction h with
  | nil => exact Nat.le_refl _
  | cons _ hf _ ih => exact Nat.le_trans hf.idle_le.1 ih

/-- A path carries the output of its route. -/
theorem Path.output_eq {b b' : Branch} {route : Route} (h : q.Path b route b') :
    b'.output = b.output ++ q.outputOf route := by
  induction h with
  | nil b => rw [outputOf, List.map_nil, List.filter_nil, List.append_nil]
  | cons _ hf _ ih => rw [ih, hf.output_eq, outputOf_cons, List.append_assoc]

theorem path_nil_iff {b b' : Branch} : q.Path b [] b' ↔ b' = b := by
  constructor
  · intro h
    cases h
    rfl
  · rintro rfl
    exact .nil _

theorem path_cons_iff {b b' : Branch} {k : Nat} {a : Arc} {route : Route} : q.Path b ((k, a) :: route) b' ↔
    q.graph.arc? b.state k = some a ∧ ∃ b₁, q.Follows b a b₁ ∧ q.Path b₁ route b' := by
  constructor
  · intro h
    cases h with
    | cons ha hf hp => exact ⟨ha, _, hf, hp⟩
  · rintro ⟨ha, b₁, hf, hp⟩
    exact .cons ha hf hp

end LexicalTransducer.Query
