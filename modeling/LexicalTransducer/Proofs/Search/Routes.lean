import LexicalTransducer.Proofs.Search.Paths
import LexicalTransducer.Proofs.Search.Run
import Mathlib.Data.Set.Card

/-!
# Every path is reported once

The accepting paths behind a path, in the order of the search, are a list without duplicates (`mem_routes`,
`nodup_routes`).  Their outputs are the outputs of the recursive search, all of them where no error stops it
(`explore_lists`), and an error stops it exactly if a legal path runs into a bad arc (`explore_error?`).  So a
lookup counts the accepting paths with a given output (`items_count_paths`).
-/

namespace LexicalTransducer

/-! ### Findings of several searches -/

namespace Findings

/-- The outputs of a search are these, or the first of these if an error stops it. -/
def Lists (a : Findings) (outputs : List (List Nat)) : Prop :=
  a.outputs <+: outputs ∧ (a.error? = none → a.outputs = outputs)

theorem error?_andThen (a b : Findings) : (a.andThen b).error?.isSome ↔ a.error?.isSome ∨ b.error?.isSome := by
  unfold andThen
  cases h : a.error? with
  | some e => simp only [h, Option.isSome_some, true_or]
  | none => simp only [Option.isSome_none, Bool.false_eq_true, false_or]

theorem error?_andThen_eq_none {a b : Findings} :
    (a.andThen b).error? = none ↔ a.error? = none ∧ b.error? = none := by
  simp only [← Option.not_isSome_iff_eq_none, error?_andThen, not_or]

theorem outputs_andThen {a b : Findings} (h : a.error? = none) : (a.andThen b).outputs = a.outputs ++ b.outputs := by
  simp only [andThen, h]

theorem error?_all (findings : List Findings) :
    (all findings).error?.isSome ↔ ∃ a ∈ findings, a.error?.isSome := by
  induction findings with
  | nil => simp only [all_nil, Option.isSome_none, Bool.false_eq_true, List.not_mem_nil, false_and, exists_false]
  | cons a findings ih => rw [all_cons, error?_andThen, ih, List.exists_mem_cons_iff]

private theorem Lists.andThen {a b : Findings} {as bs : List (List Nat)} (ha : a.Lists as) (hb : b.Lists bs) :
    (a.andThen b).Lists (as ++ bs) := by
  unfold Findings.andThen
  cases h : a.error? with
  | some e =>
    refine ⟨ha.1.trans (List.prefix_append _ _), fun hn => ?_⟩
    rw [h] at hn
    cases hn
  | none =>
    simp only [ha.2 h]
    refine ⟨(List.prefix_append_right_inj _).2 hb.1, fun hn => ?_⟩
    show as ++ b.outputs = as ++ bs
    rw [hb.2 hn]

theorem Lists.all {α : Type} {f : α → Findings} {g : α → List (List Nat)} {xs : List α}
    (h : ∀ x ∈ xs, (f x).Lists (g x)) : (all (xs.map f)).Lists (xs.flatMap g) := by
  induction xs with
  | nil => exact ⟨List.prefix_refl _, fun _ => rfl⟩
  | cons x xs ih =>
    rw [List.map_cons, all_cons, List.flatMap_cons]
    exact (h x (List.mem_cons_self ..)).andThen (ih fun y hy => h y (List.mem_cons_of_mem _ hy))

theorem error_mem_items {a : Findings} {e : LookupError} : .error e ∈ a.items ↔ a.error? = some e := by
  simp only [items, List.mem_append, List.mem_map, reduceCtorEq, and_false, exists_false, Except.error.injEq,
    exists_eq_right, Option.mem_toList, false_or]

private theorem ok_mem_items {a : Findings} {v : List Nat} : .ok v ∈ a.items ↔ v ∈ a.outputs := by
  simp only [items, List.mem_append, List.mem_map, reduceCtorEq, and_false, exists_false, Except.ok.injEq,
    exists_eq_right, or_false]

private theorem count_ok_items (a : Findings) (v : List Nat) : a.items.count (.ok v) = a.outputs.count v := by
  have hinj : Function.Injective (Except.ok : List Nat → Item) := fun _ _ => Except.ok.inj
  have herror : (a.error?.toList.map Except.error : List Item).count (.ok v) = 0 := by
    rw [List.count_eq_zero]
    intro h
    obtain ⟨e, -, he⟩ := List.mem_map.1 h
    cases he
  rw [items, List.count_append, List.count_map_of_injective _ _ hinj, herror, Nat.add_zero]

end Findings

namespace Query

variable (q : Query)

/-! ### The accepting routes in order -/

/-- The routes from the end of a path on which the search arrives, in its order. -/
def routes (b : Branch) : List Route :=
  (if q.Arrives b then [[]] else []) ++ (q.graph.outgoing b.state).zipIdx.flatMap fun e =>
    match _h : q.tryArc b e.1 with
    | some (.ok b') => (routes b').map ((e.2, e.1) :: ·)
    | _ => []
termination_by q.room b
decreasing_by exact q.room_lt_of_tryArc _h

def routesThrough (b : Branch) (e : Arc × Nat) : List Route :=
  match q.tryArc b e.1 with
  | some (.ok b') => (q.routes b').map ((e.2, e.1) :: ·)
  | _ => []

private theorem routes_eq (b : Branch) : q.routes b = (if q.Arrives b then [[]] else []) ++
    (q.graph.outgoing b.state).zipIdx.flatMap (q.routesThrough b) := by
  rw [routes]
  congr 2
  funext e
  unfold routesThrough
  split <;> rename_i h <;> simp only [h]

/-- What holds of a path as soon as it holds of the paths one arc longer holds of every path. -/
theorem branch_induction {motive : Branch → Prop}
    (step : ∀ b, (∀ a b', q.tryArc b a = some (.ok b') → motive b') → motive b) (b : Branch) : motive b :=
  (measure q.room).wf.induction b fun b ih => step b fun _ b' h => ih b' (q.room_lt_of_tryArc h)

variable {q}

private theorem mem_routesThrough {b : Branch} {e : Arc × Nat} {route : Route} : route ∈ q.routesThrough b e ↔
    ∃ b', q.tryArc b e.1 = some (.ok b') ∧ ∃ rest ∈ q.routes b', (e.2, e.1) :: rest = route := by
  unfold routesThrough
  split
  · rename_i b' h
    rw [List.mem_map, h]
    constructor
    · rintro ⟨rest, hr, rfl⟩
      exact ⟨b', rfl, rest, hr, rfl⟩
    · rintro ⟨b₁, hb, hr⟩
      cases hb
      exact hr
  · rename_i h
    constructor
    · intro hr
      cases hr
    · rintro ⟨b', hb, -⟩
      exact absurd hb (h b')

private theorem nil_mem_routes {b : Branch} : [] ∈ q.routes b ↔ q.Arrives b := by
  rw [routes_eq, List.mem_append]
  have hn : ([] : Route) ∉ (q.graph.outgoing b.state).zipIdx.flatMap (q.routesThrough b) := by
    intro h
    obtain ⟨e, -, he⟩ := List.mem_flatMap.1 h
    obtain ⟨b', -, rest, -, hr⟩ := mem_routesThrough.1 he
    cases hr
  by_cases h : q.Arrives b
  · simp only [h, ↓reduceIte, List.mem_singleton, true_or]
  · simp only [h, ↓reduceIte, List.not_mem_nil, false_or, hn]

private theorem cons_mem_routes {b : Branch} {k : Nat} {a : Arc} {route : Route} : (k, a) :: route ∈ q.routes b ↔
    q.graph.arc? b.state k = some a ∧ ∃ b', q.tryArc b a = some (.ok b') ∧ route ∈ q.routes b' := by
  have hn : (k, a) :: route ∉ (if q.Arrives b then [[]] else []) := by
    split
    · exact fun h => absurd (List.mem_singleton.1 h) (List.cons_ne_nil _ _)
    · exact List.not_mem_nil
  rw [routes_eq, List.mem_append, or_iff_right hn, List.mem_flatMap]
  constructor
  · rintro ⟨⟨a', k'⟩, he, hr⟩
    obtain ⟨b', hb, rest, hrest, heq⟩ := mem_routesThrough.1 hr
    cases heq
    rw [List.mem_zipIdx_iff_getElem?, Graph.getElem?_outgoing] at he
    exact ⟨he, b', hb, hrest⟩
  · rintro ⟨ha, b', hb, hr⟩
    refine ⟨(a, k), ?_, mem_routesThrough.2 ⟨b', hb, route, hr, rfl⟩⟩
    rw [List.mem_zipIdx_iff_getElem?, Graph.getElem?_outgoing]
    exact ha

/-- The search arrives on the legal paths that accept. -/
theorem mem_routes {b : Branch} {route : Route} (hb : b.idle ≤ q.limits.maxDepth) :
    route ∈ q.routes b ↔ ∃ b', q.Path b route b' ∧ b'.idle ≤ q.limits.maxDepth ∧ q.Arrives b' := by
  induction route generalizing b with
  | nil =>
    rw [nil_mem_routes]
    simp only [path_nil_iff, exists_eq_left, hb, true_and]
  | cons e route ih =>
    obtain ⟨k, a⟩ := e
    rw [cons_mem_routes]
    constructor
    · rintro ⟨ha, b₁, ht, hr⟩
      obtain ⟨hf, hi⟩ := tryArc_eq_ok.1 ht
      obtain ⟨b', hp, hend⟩ := (ih hi).1 hr
      exact ⟨b', .cons ha hf hp, hend⟩
    · rintro ⟨b', hp, hi, harr⟩
      obtain ⟨ha, b₁, hf, hp⟩ := path_cons_iff.1 hp
      have hi₁ := Nat.le_trans hp.idle_le hi
      exact ⟨ha, b₁, tryArc_eq_ok.2 ⟨hf, hi₁⟩, (ih hi₁).2 ⟨b', hp, hi, harr⟩⟩

/-- No route is taken twice: two arcs of a state differ in their numbers. -/
theorem nodup_routes (b : Branch) : (q.routes b).Nodup := by
  induction b using q.branch_induction with
  | step b ih =>
    have hthrough : ∀ e ∈ (q.graph.outgoing b.state).zipIdx, (q.routesThrough b e).Nodup := by
      intro e _
      unfold routesThrough
      split
      · rename_i b' h
        exact (ih e.1 b' h).map fun r r' h => (List.cons.inj h).2
      · exact List.nodup_nil
    -- two arcs of a state may be equal, but their numbers are not
    have hne : (q.graph.outgoing b.state).zipIdx.Nodup := by
      apply List.Nodup.of_map Prod.snd
      rw [List.zipIdx_map_snd]
      exact List.nodup_range'
    have hdisjoint : ∀ e e' : Arc × Nat, e ≠ e' → (q.routesThrough b e).Disjoint (q.routesThrough b e') := by
      intro e e' he route hr hr'
      obtain ⟨-, -, rest, -, rfl⟩ := mem_routesThrough.1 hr
      obtain ⟨-, -, rest', -, h⟩ := mem_routesThrough.1 hr'
      obtain ⟨h2, h1⟩ := Prod.mk.inj (List.cons.inj h).1
      exact he (Prod.ext h1.symm h2.symm)
    rw [routes_eq, List.nodup_append']
    refine ⟨by split <;> simp, List.nodup_flatMap.2 ⟨hthrough, hne.imp fun {e e'} => hdisjoint e e'⟩, ?_⟩
    intro route h hr
    obtain ⟨e, -, he⟩ := List.mem_flatMap.1 hr
    obtain ⟨-, -, rest, -, rfl⟩ := mem_routesThrough.1 he
    split at h
    · exact absurd (List.mem_singleton.1 h) (List.cons_ne_nil _ _)
    · cases h

/-! ### The findings of the search -/

theorem error?_arrive (q : Query) (b : Branch) : (q.arrive b).error? = none := by
  unfold arrive
  split <;> rfl

theorem explore_error? {b : Branch} (hb : b.idle ≤ q.limits.maxDepth) :
    (q.explore q.graph.outgoing b).error?.isSome ↔ ∃ route b', q.Path b route b' ∧
      b'.idle ≤ q.limits.maxDepth ∧ ∃ k a, q.graph.arc? b'.state k = some a ∧
        (q.Mismatched b' a ∨ q.Exceeds b' a) := by
  induction b using q.branch_induction with
  | step b ih =>
    have harrive : ¬ (q.arrive b).error?.isSome := by simp [error?_arrive]
    rw [explore_eq, Findings.error?_andThen, or_iff_right harrive, Findings.error?_all]
    constructor
    · rintro ⟨found, hfound, herror⟩
      obtain ⟨a, ha, rfl⟩ := List.mem_map.1 hfound
      obtain ⟨k, hk⟩ := List.mem_iff_getElem?.1 ha
      rw [Graph.getElem?_outgoing] at hk
      unfold exploreArc at herror
      split at herror
      · cases herror
      · rename_i e he
        exact ⟨[], b, .nil b, hb, k, a, hk, (tryArc_eq_error hb).1 ⟨e, he⟩⟩
      · rename_i b₁ h₁
        obtain ⟨hf, hi⟩ := tryArc_eq_ok.1 h₁
        obtain ⟨route, b', hp, hend⟩ := (ih a b₁ h₁ hi).1 herror
        exact ⟨(k, a) :: route, b', .cons hk hf hp, hend⟩
    · rintro ⟨route, b', hp, hi, k, a, ha, hstop⟩
      cases hp with
      | nil =>
        obtain ⟨e, he⟩ := (tryArc_eq_error hi).2 hstop
        rw [← Graph.getElem?_outgoing] at ha
        refine ⟨_, List.mem_map_of_mem (List.mem_of_getElem? ha), ?_⟩
        unfold exploreArc
        rw [he]
        rfl
      | @cons _ b₁ _ k₁ a₁ route ha₁ hf hp =>
        have h₁ := tryArc_eq_ok.2 ⟨hf, Nat.le_trans hp.idle_le hi⟩
        rw [← Graph.getElem?_outgoing] at ha₁
        refine ⟨_, List.mem_map_of_mem (List.mem_of_getElem? ha₁), ?_⟩
        unfold exploreArc
        rw [h₁]
        exact (ih a₁ b₁ h₁ (Nat.le_trans hp.idle_le hi)).2 ⟨route, b', hp, hi, k, a, ha, hstop⟩

private theorem exploreArc_lists {b : Branch} {e : Arc × Nat}
    (ih : ∀ b', q.tryArc b e.1 = some (.ok b') →
      (q.explore q.graph.outgoing b').Lists ((q.routes b').map (b'.output ++ q.outputOf ·))) :
    (q.exploreArc q.graph.outgoing b e.1).Lists
      ((q.routesThrough b e).map (b.output ++ q.outputOf ·)) := by
  unfold exploreArc routesThrough
  split
  · rename_i h
    simp only [h, List.map_nil]
    exact ⟨List.prefix_refl _, fun _ => rfl⟩
  · rename_i err h
    simp only [h, List.map_nil]
    exact ⟨List.prefix_refl _, fun hn => rfl⟩
  · rename_i b' h
    have hout := (tryArc_eq_ok.1 h).1.output_eq
    have hlists := ih b' h
    simp only [h, List.map_map]
    have hmap : ((b.output ++ q.outputOf ·) ∘ ((e.2, e.1) :: ·) : Route → List Nat) =
        (b'.output ++ q.outputOf ·) := by
      funext route
      rw [Function.comp_apply, outputOf_cons, hout, List.append_assoc]
    rwa [hmap]

/-- The recursive search finds the outputs of the accepting routes, one by one. -/
theorem explore_lists (b : Branch) :
    (q.explore q.graph.outgoing b).Lists ((q.routes b).map (b.output ++ q.outputOf ·)) := by
  induction b using q.branch_induction with
  | step b ih =>
    have harrive : (q.arrive b).Lists ((if q.Arrives b then [[]] else []).map (b.output ++ q.outputOf ·)) := by
      have heq : q.arrive b = if q.Arrives b then { outputs := [b.output] } else {} := rfl
      rw [heq]
      by_cases h : q.Arrives b
      · rw [if_pos h, if_pos h, List.map_singleton]
        have hnil : b.output ++ q.outputOf [] = b.output := List.append_nil _
        rw [hnil]
        exact ⟨List.prefix_refl _, fun _ => rfl⟩
      · rw [if_neg h, if_neg h]
        exact ⟨List.prefix_refl _, fun _ => rfl⟩
    -- the routes number the arcs of a state, the search only takes them in order
    have hrow : (q.graph.outgoing b.state).map (q.exploreArc q.graph.outgoing b) =
        (q.graph.outgoing b.state).zipIdx.map fun e => q.exploreArc q.graph.outgoing b e.1 := by
      conv_lhs => rw [← List.zipIdx_map_fst 0 (q.graph.outgoing b.state), List.map_map]
      rfl
    rw [explore_eq, routes_eq, List.map_append, List.map_flatMap, hrow]
    exact harrive.andThen (.all fun e _ => exploreArc_lists (ih e.1))

/-! ### A whole lookup -/

theorem not_isLegal_none {route : Route} {b : Branch} : ¬ q.IsLegal none route b := by
  rintro ⟨state, hs, -⟩
  cases hs

theorem isLegal_some {state : Nat} {route : Route} {b : Branch} :
    q.IsLegal (some state) route b ↔ q.Path (q.root state) route b ∧ b.idle ≤ q.limits.maxDepth := by
  constructor
  · rintro ⟨_, hs, h⟩
    cases hs
    exact h
  · intro h
    exact ⟨state, rfl, h⟩

/-- The accepting routes from the initial state, if there is one. -/
def acceptingRoutes (q : Query) : Option Nat → List Route
  | none => []
  | some state => q.routes (q.root state)

private theorem mem_acceptingRoutes {initial : Option Nat} {route : Route} :
    route ∈ q.acceptingRoutes initial ↔ q.IsAccepting initial route := by
  cases initial with
  | none =>
    constructor
    · intro h
      cases h
    · rintro ⟨b, hl, -⟩
      exact absurd hl not_isLegal_none
  | some state =>
    refine (mem_routes (Nat.zero_le _)).trans ?_
    simp only [IsAccepting, isLegal_some, and_assoc]

private theorem nodup_acceptingRoutes (initial : Option Nat) : (q.acceptingRoutes initial).Nodup := by
  cases initial with
  | none => exact List.nodup_nil
  | some state => exact nodup_routes _

private theorem findings_lists (initial : Option Nat) :
    (q.findings initial).Lists ((q.acceptingRoutes initial).map q.outputOf) := by
  cases initial with
  | none => exact ⟨List.prefix_refl _, fun _ => rfl⟩
  | some state => exact explore_lists (q.root state)

private theorem findings_error? (initial : Option Nat) :
    (q.findings initial).error?.isSome ↔ ∃ route b, q.IsLegal initial route b ∧
      ∃ k a, q.graph.arc? b.state k = some a ∧ (q.Mismatched b a ∨ q.Exceeds b a) := by
  cases initial with
  | none =>
    constructor
    · intro h
      cases h
    · rintro ⟨route, b, hl, -⟩
      exact absurd hl not_isLegal_none
  | some state =>
    refine (explore_error? (Nat.zero_le _)).trans ?_
    simp only [isLegal_some, and_assoc]

theorem exists_error_items_start {initial : Option Nat} :
    (∃ e, .error e ∈ q.items (q.start initial)) ↔ (q.findings initial).error?.isSome := by
  simp only [items_start, Findings.error_mem_items, Option.isSome_iff_exists]

private theorem outputs_findings {initial : Option Nat} (hnone : ∀ e, .error e ∉ q.items (q.start initial)) :
    (q.findings initial).outputs = (q.acceptingRoutes initial).map q.outputOf := by
  refine (findings_lists initial).2 ?_
  rw [← Option.not_isSome_iff_eq_none, ← exists_error_items_start]
  exact not_exists.2 hnone

/-- Every result is the output of an accepting path, also in front of an error. -/
theorem exists_isAccepting {initial : Option Nat} {v : List Nat} (h : .ok v ∈ q.items (q.start initial)) :
    ∃ route, q.IsAccepting initial route ∧ q.outputOf route = v := by
  rw [items_start, Findings.ok_mem_items] at h
  obtain ⟨route, hr, hv⟩ := List.mem_map.1 ((findings_lists initial).1.subset h)
  exact ⟨route, mem_acceptingRoutes.1 hr, hv⟩

/-- Without an error every accepting path is reported. -/
theorem outputOf_mem_items {initial : Option Nat} {route : Route}
    (hnone : ∀ e, .error e ∉ q.items (q.start initial)) (h : q.IsAccepting initial route) :
    .ok (q.outputOf route) ∈ q.items (q.start initial) := by
  rw [items_start, Findings.ok_mem_items, outputs_findings hnone]
  exact List.mem_map_of_mem (mem_acceptingRoutes.2 h)

/-- Counting in a list without duplicates is counting in a set. -/
private theorem encard_setOf_mem {routes : List Route} (h : routes.Nodup) (f : Route → List Nat) (v : List Nat) :
    {route | route ∈ routes ∧ f route = v}.encard = ((routes.map f).count v : ℕ) := by
  have hset : {route | route ∈ routes ∧ f route = v} =
      ((routes.filter fun route => f route == v).toFinset : Set Route) := by
    ext route
    simp only [Set.mem_ofPred_eq, List.coe_toFinset, List.mem_filter, beq_iff_eq]
  rw [hset, Set.encard_coe_eq_coe_finsetCard, List.toFinset_card_of_nodup (h.filter _), List.count,
    List.countP_map, List.countP_eq_length_filter]
  rfl

/-- A search ends with an error exactly if some legal path runs into an arc that stops it, and without one every
output comes as often as there are accepting paths with it. -/
theorem items_count_paths (q : Query) (initial : Option Nat) :
    ((∃ e, .error e ∈ q.items (q.start initial)) ↔ ∃ route b, q.IsLegal initial route b ∧
      ∃ k a, q.graph.arc? b.state k = some a ∧ (q.Mismatched b a ∨ q.Exceeds b a)) ∧
    ((∀ e, .error e ∉ q.items (q.start initial)) → ∀ v,
      {route | q.IsAccepting initial route ∧ q.outputOf route = v}.encard =
        ((q.items (q.start initial)).count (.ok v) : ℕ)) := by
  refine ⟨exists_error_items_start.trans (findings_error? initial), ?_⟩
  intro hnone v
  have hall := outputs_findings hnone
  simp only [← mem_acceptingRoutes]
  rw [encard_setOf_mem (nodup_acceptingRoutes initial), items_start, Findings.count_ok_items, hall]

/-- Two arcs with the same labels that lead to different states. -/
def forked : Query where
  graph := .ofArcs [⟨0, 3, 1, 1⟩, ⟨0, 3, 1, 2⟩] {1, 2}
  symbols :=
    { symbols := .ofList [(1, Symbol.grapheme 'a'), (3, .grapheme 'b')]
      codes := .ofList [("a", 1), ("b", 3)] }
  input := #[1]
  tape := .lower

/-- Both paths give the same output, and both are counted. -/
theorem encard_forked : (∀ e, .error e ∉ forked.items (forked.start (some 0))) ∧
    {route | forked.IsAccepting (some 0) route ∧ forked.outputOf route = [3]}.encard = (2 : ℕ) := by
  have hitems : forked.items (forked.start (some 0)) = [.ok [3], .ok [3]] :=
    forked.items_of_itemsWithin (n := 20) (by decide)
  have hnone : ∀ e, .error e ∉ forked.items (forked.start (some 0)) := by
    rw [hitems]
    simp
  have hcount := (forked.items_count_paths (some 0)).2 hnone [3]
  rw [hitems] at hcount
  exact ⟨hnone, hcount⟩

end Query

end LexicalTransducer
