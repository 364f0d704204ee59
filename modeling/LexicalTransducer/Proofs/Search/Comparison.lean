import LexicalTransducer.Proofs.Search.Routes

/-!
# Comparing two searches

What two searches find is compared arc by arc.  A relation between findings that also holds of what is found one after
the other (`Composes`) holds between two whole searches along the same arcs, if it holds where they arrive and is
passed on by each arc (`Composes.explore`).
-/

namespace LexicalTransducer

namespace Findings

/-- A relation between the findings of two searches that lasts while both search on. -/
structure Composes (related : Findings → Findings → Prop) : Prop where
  nothing : related {} {}
  andThen : ∀ {a a' b b' : Findings}, related a a' → related b b' → related (a.andThen b) (a'.andThen b')

variable {related : Findings → Findings → Prop}

private theorem Composes.all (hc : Composes related) {α : Type} {f f' : α → Findings} {xs : List α}
    (h : ∀ x ∈ xs, related (f x) (f' x)) : related (all (xs.map f)) (all (xs.map f')) := by
  induction xs with
  | nil => exact hc.nothing
  | cons x xs ih =>
    simp only [List.map_cons, all_cons]
    exact hc.andThen (h x (by simp)) (ih fun y hy => h y (by simp [hy]))

/-- Behind two paths that go side by side the findings are related, if each arc relates what it leads to on both sides
as soon as the paths behind it are related. -/
theorem Composes.explore (hc : Composes related) {q q' : Query} (beside : Branch → Branch → Prop) (arc : Arc → Arc)
    (harrive : ∀ {b b'}, beside b b' → related (q.arrive b) (q'.arrive b'))
    (houtgoing : ∀ {b b'}, beside b b' → q'.graph.outgoing b'.state = (q.graph.outgoing b.state).map arc)
    (harc : ∀ {b b' a}, beside b b' →
      (∀ {b₁ b₁'}, q.tryArc b a = some (.ok b₁) → beside b₁ b₁' →
        related (q.explore q.graph.outgoing b₁) (q'.explore q'.graph.outgoing b₁')) →
      related (q.exploreArc q.graph.outgoing b a) (q'.exploreArc q'.graph.outgoing b' (arc a)))
    {b b' : Branch} (h : beside b b') :
    related (q.explore q.graph.outgoing b) (q'.explore q'.graph.outgoing b') := by
  -- on the paths of the first search; those of the second one follow along the same arcs
  induction b using q.branch_induction generalizing b' with
  | step b ih =>
    rw [Query.explore_eq, Query.explore_eq, houtgoing h, List.map_map]
    exact hc.andThen (harrive h) (hc.all fun a _ => harc h fun htried hbeside => ih _ _ htried hbeside)

end Findings

end LexicalTransducer
