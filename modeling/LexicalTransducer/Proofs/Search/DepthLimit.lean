import LexicalTransducer.Proofs.Search.Comparison
import LexicalTransducer.Proofs.Search.Correspondence

/-!
# A larger depth limit

Two searches that differ in their depth limits do the same with every arc, until the smaller limit stops one of them
(`tryArc_withDepth`).  So under the larger limit a search finds the same, or it goes on where the smaller limit has
stopped it (`items_withDepth`).
-/

namespace LexicalTransducer

namespace Findings

/-- The findings `a'` under a larger depth limit: the same, or more where `limit` has stopped the search. -/
inductive Extends (limit : Nat) (a a' : Findings) : Prop
  | same (h : ∀ n, a.error? ≠ some (.depthLimit n)) (heq : a' = a)
  | further (h : a.error? = some (.depthLimit limit)) (hp : a.outputs <+: a'.outputs)

variable {limit : Nat} {a a' b b' : Findings}

private theorem outputs_prefix_andThen (a b : Findings) : a.outputs <+: (a.andThen b).outputs := by
  unfold andThen
  split
  · exact List.prefix_refl _
  · exact List.prefix_append _ _

private theorem Extends.andThen (ha : a.Extends limit a') (hb : b.Extends limit b') :
    (a.andThen b).Extends limit (a'.andThen b') := by
  cases ha with
  | further h hp =>
    rw [andThen_of_error _ a b h]
    exact .further h (hp.trans (outputs_prefix_andThen a' b'))
  | same h heq =>
    subst heq
    cases he : a'.error? with
    | some e =>
      rw [andThen_of_error e a' b he, andThen_of_error e a' b' he]
      exact .same h rfl
    | none =>
      cases hb with
      | same hb heq =>
        subst heq
        exact .same (by simp only [Findings.andThen, he]; exact hb) rfl
      | further hb hp =>
        refine .further (by simp only [Findings.andThen, he, hb]) ?_
        rw [outputs_andThen he, outputs_andThen he]
        exact (List.prefix_append_right_inj _).2 hp

private theorem composes_extends (limit : Nat) : Composes (Extends limit) where
  nothing := .same (by simp) rfl
  andThen := Extends.andThen

/-- An error in a row of items is the last one, and the items in front of it are the outputs. -/
private theorem eq_of_items_eq {xs rest : List Item} {e : LookupError} (h : a.items = xs ++ .error e :: rest) :
    a.error? = some e ∧ rest = [] ∧ xs = a.outputs.map .ok := by
  have he : a.error? = some e := error_mem_items.1 (by simp [h])
  have hitems : xs ++ .error e :: rest = a.outputs.map .ok ++ [.error e] := by
    rw [← h, items, he]
    rfl
  rcases List.append_eq_append_iff.1 hitems with ⟨as, hout, hrest⟩ | ⟨bs, hxs, hrest⟩
  · cases as with
    | nil => simp_all
    | cons i as =>
      -- then the error would be one of the outputs
      have hmem : .error e ∈ a.outputs.map (Except.ok : List Nat → Item) := by simp_all
      simp at hmem
  · cases bs with
    | nil => simp_all
    | cons i bs => simp at hrest

end Findings

namespace Query

/-- The same search with another depth limit. -/
def withDepth (q : Query) (maxDepth : Nat) : Query :=
  { q with limits := { maxDepth } }

/-- What an arc does to a path, and what it does under a larger limit. -/
inductive TriedFurther (limit : Nat) (tried tried' : Option (Except LookupError Branch)) : Prop
  | same (h : ∀ n, tried ≠ some (.error (.depthLimit n))) (heq : tried' = tried)
  | stopped (h : tried = some (.error (.depthLimit limit)))

variable (q : Query) {m m' : Nat}

private theorem limited_withDepth (h : m ≤ m') (b : Branch) :
    TriedFurther m (some ((q.withDepth m).limited b)) (some ((q.withDepth m').limited b)) := by
  by_cases hi : m < b.idle
  · have hstop := (q.withDepth m).limited_eq_error.2 ⟨rfl, hi⟩
    exact .stopped (congrArg some hstop)
  · have hgo := (q.withDepth m).limited_eq_ok.2 ⟨rfl, Nat.le_of_not_lt hi⟩
    have hgo' := (q.withDepth m').limited_eq_ok.2 ⟨rfl, Nat.le_trans (Nat.le_of_not_lt hi) h⟩
    rw [hgo, hgo']
    exact .same (by simp) rfl

/-- An arc does the same under both limits, unless the smaller one stops the search there. -/
theorem tryArc_withDepth (h : m ≤ m') (b : Branch) (a : Arc) :
    TriedFurther m ((q.withDepth m).tryArc b a) ((q.withDepth m').tryArc b a) := by
  refine tryArc_rel (P := TriedFurther m) Iff.rfl Iff.rfl Iff.rfl ?_ (.same (by simp) rfl)
    (q.limited_withDepth h _) (q.limited_withDepth h _)
  cases hf : q.symbols.flag? (q.read a) with
  | none => exact .inl ⟨hf, hf⟩
  | some f => exact .inr ⟨f, f, hf, hf, rfl, .same (by simp) rfl, q.limited_withDepth h _⟩

private theorem exploreArc_withDepth (h : m ≤ m') (arcs : Nat → List Arc) {b : Branch} {a : Arc}
    (ih : ∀ {b₁}, (q.withDepth m).tryArc b a = some (.ok b₁) →
      ((q.withDepth m).explore arcs b₁).Extends m ((q.withDepth m').explore arcs b₁)) :
    ((q.withDepth m).exploreArc arcs b a).Extends m ((q.withDepth m').exploreArc arcs b a) := by
  unfold exploreArc
  cases q.tryArc_withDepth h b a with
  | stopped hstop =>
    rw [hstop]
    exact .further rfl List.nil_prefix
  | same hne heq =>
    rw [heq]
    cases htried : (q.withDepth m).tryArc b a with
    | none => exact .same (by simp) rfl
    | some tried =>
      cases tried with
      | error e =>
        rw [htried] at hne
        exact .same (by simpa using hne) rfl
      | ok b₁ => exact ih htried

private theorem findings_withDepth (h : m ≤ m') (initial : Option Nat) :
    ((q.withDepth m).findings initial).Extends m ((q.withDepth m').findings initial) := by
  cases initial with
  | none => exact .same (by simp [findings]) rfl
  | some state =>
    refine (Findings.composes_extends m).explore (· = ·) id ?_ ?_ ?_ rfl
    · rintro b _ rfl
      exact .same (by simp [error?_arrive]) rfl
    · rintro b _ rfl
      exact (List.map_id _).symm
    · rintro b _ a rfl ih
      exact q.exploreArc_withDepth h _ fun htried => ih htried rfl

/-- A search that the depth limit does not stop gives the same items under every larger limit.  One that it stops gives
the first items of the search under a larger limit, and then the error with its own limit, and no more. -/
theorem items_withDepth (q : Query) {m m' : Nat} (h : m ≤ m') (initial : Option Nat) :
    ((∀ limit, .error (.depthLimit limit) ∉ (q.withDepth m).items ((q.withDepth m).start initial)) →
      (q.withDepth m').items ((q.withDepth m').start initial) =
        (q.withDepth m).items ((q.withDepth m).start initial)) ∧
    ∀ xs limit rest,
      (q.withDepth m).items ((q.withDepth m).start initial) = xs ++ .error (.depthLimit limit) :: rest →
        limit = m ∧ rest = [] ∧ xs <+: (q.withDepth m').items ((q.withDepth m').start initial) := by
  rw [items_start, items_start]
  have hextends := q.findings_withDepth h initial
  constructor
  · intro hnone
    cases hextends with
    | same _ heq => rw [heq]
    | further he => exact absurd (Findings.error_mem_items.2 he) (hnone m)
  · intro xs limit rest hitems
    obtain ⟨he, hrest, rfl⟩ := Findings.eq_of_items_eq hitems
    cases hextends with
    | same hne => exact absurd he (hne limit)
    | further hm hp =>
      have hlimit : limit = m := by simpa [hm] using he.symm
      exact ⟨hlimit, hrest, (hp.map _).trans (List.prefix_append _ _)⟩

/-- A loop that consumes nothing stops the search under either limit, but under the larger one only after one more
result. -/
theorem items_looping_withDepth : 1 ≤ 2 ∧
    (looping.withDepth 1).items ((looping.withDepth 1).start (some 0)) = [.ok [3], .error (.depthLimit 1)] ∧
    [.ok [3]] <+: (looping.withDepth 2).items ((looping.withDepth 2).start (some 0)) := by
  have hle : 1 ≤ 2 := by decide
  have hitems : (looping.withDepth 1).items ((looping.withDepth 1).start (some 0)) =
      [.ok [3], .error (.depthLimit 1)] :=
    items_of_itemsWithin (n := 20) _ (by decide +kernel)
  exact ⟨hle, hitems, ((looping.items_withDepth hle (some 0)).2 [.ok [3]] 1 [] hitems).2.2⟩

end Query

end LexicalTransducer
