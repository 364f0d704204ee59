import LexicalTransducer.Proofs.Search.Routes

/-!
# Searches that correspond

Two searches correspond if the paths of one are those of the other under another description: they arrive together,
the arcs behind them are the same up to their order, and each arc is skipped on both, stops both or leads both on
(`Corresponds`).  Then an error stops both or none, and without one they have the same outputs up to order
(`Corresponds.findings_alike`, `sameResults_of_tryArc`).  So a lookup does not depend on the order of the arcs
(`sameResults_on`).
-/

namespace LexicalTransducer

/-- Two rows of results are the same up to their order, or both end with an error. -/
structure SameResults {α : Type} (items items' : List (Except LookupError α)) : Prop where
  error_iff : (∃ e, .error e ∈ items) ↔ ∃ e, .error e ∈ items'
  perm : (∀ e, .error e ∉ items) → items.Perm items'

theorem SameResults.refl {α : Type} (items : List (Except LookupError α)) : SameResults items items :=
  ⟨Iff.rfl, fun _ => List.Perm.refl _⟩

namespace Findings

/-- The same outputs up to their order, read through `out`, unless an error stops both searches. -/
structure Alike (out : List Nat → List Nat) (a a' : Findings) : Prop where
  error_iff : a.error?.isSome ↔ a'.error?.isSome
  perm : a.error? = none → (a.outputs.map out).Perm a'.outputs

variable {out : List Nat → List Nat} {a a' b b' : Findings}

private theorem Alike.error_eq_none (h : a.Alike out a') (hn : a.error? = none) : a'.error? = none := by
  rw [← Option.not_isSome_iff_eq_none, ← h.error_iff, hn]
  exact Bool.false_ne_true

private theorem Alike.nothing : Alike out {} {} :=
  ⟨Iff.rfl, fun _ => List.Perm.refl _⟩

private theorem Alike.andThen (ha : a.Alike out a') (hb : b.Alike out b') :
    (a.andThen b).Alike out (a'.andThen b') := by
  refine ⟨by rw [error?_andThen, error?_andThen, ha.error_iff, hb.error_iff], fun hn => ?_⟩
  obtain ⟨hna, hnb⟩ := error?_andThen_eq_none.1 hn
  rw [outputs_andThen hna, outputs_andThen (ha.error_eq_none hna), List.map_append]
  exact (ha.perm hna).append (hb.perm hnb)

private theorem outputs_all {findings : List Findings} (h : (all findings).error? = none) :
    (all findings).outputs = findings.flatMap (·.outputs) := by
  have hlists : (all (findings.map id)).Lists (findings.flatMap (·.outputs)) :=
    Lists.all fun _ _ => ⟨List.prefix_refl _, fun _ => rfl⟩
  rw [List.map_id] at hlists
  exact hlists.2 h

/-- Searches that are alike one by one are alike together, in whatever order they are made. -/
private theorem Alike.all {α β : Type} {f : α → Findings} {f' : β → Findings} {g : α → β} {xs : List α} {ys : List β}
    (hperm : (xs.map g).Perm ys) (h : ∀ x ∈ xs, (f x).Alike out (f' (g x))) :
    (all (xs.map f)).Alike out (all (ys.map f')) := by
  have herror : (Findings.all (xs.map f)).error?.isSome ↔ (Findings.all (ys.map f')).error?.isSome := by
    simp only [error?_all, List.mem_map, exists_exists_and_eq_and, ← hperm.mem_iff]
    exact exists_congr fun x => and_congr_right fun hx => (h x hx).error_iff
  refine ⟨herror, fun hn => ?_⟩
  have hn' : (Findings.all (ys.map f')).error? = none := by
    rw [← Option.not_isSome_iff_eq_none, ← herror, hn]
    exact Bool.false_ne_true
  have hnone : ∀ x ∈ xs, (f x).error? = none := by
    intro x hx
    rw [← Option.not_isSome_iff_eq_none]
    intro he
    have := (error?_all _).2 ⟨f x, List.mem_map_of_mem hx, he⟩
    rw [hn] at this
    exact Bool.false_ne_true this
  rw [outputs_all hn, outputs_all hn', List.flatMap_map, List.flatMap_map, List.map_flatMap]
  refine (List.Perm.flatMap_left xs fun x hx => (h x hx).perm (hnone x hx)).trans ?_
  rw [← List.flatMap_map g fun y => (f' y).outputs]
  exact hperm.flatMap_right _

theorem Alike.sameResults (h : a.Alike id a') : SameResults a.items a'.items := by
  constructor
  · simp only [error_mem_items, ← Option.isSome_iff_exists, h.error_iff]
  · intro hn
    have hnone : a.error? = none := by
      rw [Option.eq_none_iff_forall_ne_some]
      exact fun e he => hn e (error_mem_items.2 he)
    have hperm := h.perm hnone
    rw [List.map_id] at hperm
    simp only [items, hnone, h.error_eq_none hnone, Option.toList_none, List.map_nil, List.append_nil]
    exact hperm.map _

end Findings

namespace Query

/-- What an arc does to two paths that correspond. -/
inductive TriedAlike (rel : Branch → Branch → Prop) :
    Option (Except LookupError Branch) → Option (Except LookupError Branch) → Prop
  | skipped : TriedAlike rel none none
  | stopped (e e' : LookupError) : TriedAlike rel (some (.error e)) (some (.error e'))
  | followed {b b' : Branch} (h : rel b b') : TriedAlike rel (some (.ok b)) (some (.ok b'))

/-- Two arcs do the same to two paths, each in its search, if all that a search asks about an arc has the same answer
for both. -/
theorem tryArc_rel {q q' : Query} {P : Option (Except LookupError Branch) → Option (Except LookupError Branch) → Prop}
    {b b' : Branch} {a a' : Arc} (hepsilon : q'.read a' = Symbol.epsilonId ↔ q.read a = Symbol.epsilonId)
    (hinput : q'.input[b'.consumed]? = some (q'.read a') ↔ q.input[b.consumed]? = some (q.read a))
    (hwrite : q'.write a' = q'.read a' ↔ q.write a = q.read a)
    (hflag : q.symbols.flag? (q.read a) = none ∧ q'.symbols.flag? (q'.read a') = none ∨
      ∃ f f', q.symbols.flag? (q.read a) = some f ∧ q'.symbols.flag? (q'.read a') = some f' ∧
        f'.test b'.env = f.test b.env ∧
        P (some (.error (.mismatchedFlag b.state f.text))) (some (.error (.mismatchedFlag b'.state f'.text))) ∧
        P (some (q.limited (q.goOn b a b.consumed (f.apply b.env) (b.idle + 1))))
          (some (q'.limited (q'.goOn b' a' b'.consumed (f'.apply b'.env) (b'.idle + 1)))))
    (hskipped : P none none)
    (hidle : P (some (q.limited (q.goOn b a b.consumed b.env (b.idle + 1))))
      (some (q'.limited (q'.goOn b' a' b'.consumed b'.env (b'.idle + 1)))))
    (hconsumed : P (some (q.limited (q.goOn b a (b.consumed + 1) b.env b.idle)))
      (some (q'.limited (q'.goOn b' a' (b'.consumed + 1) b'.env b'.idle)))) :
    P (q.tryArc b a) (q'.tryArc b' a') := by
  unfold tryArc
  by_cases h0 : q.read a = Symbol.epsilonId
  · rw [if_pos h0, if_pos (hepsilon.2 h0)]
    exact hidle
  rw [if_neg h0, if_neg (mt hepsilon.1 h0)]
  by_cases hs : q.input[b.consumed]? = some (q.read a)
  · rw [if_pos hs, if_pos (hinput.2 hs)]
    exact hconsumed
  rw [if_neg hs, if_neg (mt hinput.1 hs)]
  rcases hflag with ⟨hf, hf'⟩ | ⟨f, f', hf, hf', htest, hmismatched, happlied⟩
  · rw [hf, hf']
    exact hskipped
  · simp only [hf, hf', ne_eq, hwrite, htest]
    split
    · exact hmismatched
    · split
      · exact happlied
      · exact hskipped

/-- A path of one search for each path of the other, `arc` for the arcs of the graph and `out` for the outputs. -/
structure Corresponds (q q' : Query) (rel : Branch → Branch → Prop) (arc : Arc → Arc)
    (out : List Nat → List Nat) : Prop where
  output : ∀ {b b'}, rel b b' → b'.output = out b.output
  arrives : ∀ {b b'}, rel b b' → (q.Arrives b ↔ q'.Arrives b')
  outgoing : ∀ {b b'}, rel b b' → ((q.graph.outgoing b.state).map arc).Perm (q'.graph.outgoing b'.state)
  tryArc : ∀ {b b' a}, rel b b' → a ∈ q.graph.outgoing b.state →
    TriedAlike rel (q.tryArc b a) (q'.tryArc b' (arc a))

variable {q q' : Query} {rel : Branch → Branch → Prop} {arc : Arc → Arc} {out : List Nat → List Nat}

private theorem Corresponds.arrive_alike (hc : Corresponds q q' rel arc out) {b b' : Branch} (h : rel b b') :
    (q.arrive b).Alike out (q'.arrive b') := by
  have harrive : ∀ (q : Query) b, q.arrive b = if q.Arrives b then { outputs := [b.output] } else {} :=
    fun _ _ => rfl
  rw [harrive, harrive]
  by_cases ha : q.Arrives b
  · rw [if_pos ha, if_pos ((hc.arrives h).1 ha), hc.output h]
    exact ⟨Iff.rfl, fun _ => List.Perm.refl _⟩
  · rw [if_neg ha, if_neg (mt (hc.arrives h).2 ha)]
    exact .nothing

/-- Behind paths that correspond both searches find the same. -/
private theorem Corresponds.explore_alike (hc : Corresponds q q' rel arc out) {b b' : Branch} (h : rel b b') :
    (q.explore q.graph.outgoing b).Alike out (q'.explore q'.graph.outgoing b') := by
  induction b using q.branch_induction generalizing b' with
  | step b ih =>
    rw [explore_eq, explore_eq]
    refine (hc.arrive_alike h).andThen (.all (hc.outgoing h) fun a ha => ?_)
    have htried := hc.tryArc h ha
    unfold exploreArc
    cases hb : q.tryArc b a with
    | none =>
      rw [hb] at htried
      cases hb' : q'.tryArc b' (arc a) with
      | none => exact .nothing
      | some tried =>
        rw [hb'] at htried
        cases htried
    | some tried =>
      rw [hb] at htried
      generalize q'.tryArc b' (arc a) = tried' at htried
      cases htried with
      | stopped e e' => exact ⟨Iff.rfl, fun hn => by cases hn⟩
      | followed hrel => exact ih a _ hb hrel

theorem Corresponds.findings_alike (hc : Corresponds q q' rel arc out) {initial initial' : Option Nat}
    (h : Option.Rel (fun state state' => rel (q.root state) (q'.root state')) initial initial') :
    (q.findings initial).Alike out (q'.findings initial') := by
  cases h with
  | none => exact .nothing
  | some h => exact hc.explore_alike h

/-- Where an arc of one graph does to a path just what its counterpart in the other graph does, both lookups have the
same results. -/
theorem sameResults_of_tryArc (q q' : Query) (arc : Arc → Arc) (hsymbols : q'.symbols = q.symbols)
    (hinput : q'.input = q.input) (haccepting : q'.graph.accepting = q.graph.accepting)
    (hperm : ∀ state, ((q.graph.outgoing state).map arc).Perm (q'.graph.outgoing state))
    (htry : ∀ b a, q'.tryArc b (arc a) = q.tryArc b a) (initial : Option Nat) :
    SameResults (q.items (q.start initial)) (q'.items (q'.start initial)) := by
  have hroot : ∀ state, q'.root state = q.root state := by
    intro state
    rw [root, root, hsymbols]
  have hc : Corresponds q q' (· = ·) arc id := by
    refine ⟨?_, ?_, ?_, ?_⟩
    · rintro b _ rfl
      rfl
    · rintro b _ rfl
      simp only [Arrives, Graph.accepts, hinput, haccepting]
    · rintro b _ rfl
      exact hperm b.state
    · rintro b _ a rfl -
      rw [htry]
      rcases q.tryArc b a with _ | _ | _
      · exact .skipped
      · exact .stopped _ _
      · exact .followed rfl
  have halike : (q.findings initial).Alike id (q'.findings initial) := by
    apply hc.findings_alike
    cases initial with
    | none => exact .none
    | some state => exact .some (hroot state).symm
  rw [items_start, items_start]
  exact halike.sameResults

/-! ### The order of the arcs -/

/-- The same search through another graph. -/
def on (q : Query) (g : Graph) : Query :=
  { q with graph := g }

/-- The order in which a graph has the arcs of its states does not matter to a lookup, but for the order of the
results and for the error that is met first. -/
theorem sameResults_on (q : Query) {g : Graph} (haccepting : g.accepting = q.graph.accepting)
    (hperm : ∀ state, (q.graph.outgoing state).Perm (g.outgoing state)) (initial : Option Nat) :
    SameResults (q.items (q.start initial)) ((q.on g).items ((q.on g).start initial)) := by
  have hmap : ∀ state, ((q.graph.outgoing state).map id).Perm ((q.on g).graph.outgoing state) := by
    intro state
    rw [List.map_id]
    exact hperm state
  -- what an arc does to a path is a matter of the arc and the path alone
  exact sameResults_of_tryArc q (q.on g) id rfl rfl haccepting hmap (fun _ _ => rfl) initial

/-- A flag and an arc that consumes nothing leave the same state, and both lead to a loop that consumes. -/
def parting : Query :=
  { looping with graph := .ofArcs [⟨0, 2, 2, 1⟩, ⟨0, 0, 0, 2⟩, ⟨1, 3, 1, 2⟩, ⟨2, 1, 1, 2⟩] {2} }

/-- The arcs of `parting` with those of the first state in another order. -/
def partingOtherwise : Graph :=
  .ofArcs [⟨0, 0, 0, 2⟩, ⟨0, 2, 2, 1⟩, ⟨1, 3, 1, 2⟩, ⟨2, 1, 1, 2⟩] {2}

/-- The two results come in another order. -/
theorem sameResults_parting : partingOtherwise.accepting = parting.graph.accepting ∧
    (∀ state, (parting.graph.outgoing state).Perm (partingOtherwise.outgoing state)) ∧
    SameResults (parting.items (parting.start (some 0)))
      ((parting.on partingOtherwise).items ((parting.on partingOtherwise).start (some 0))) ∧
    parting.items (parting.start (some 0)) = [.ok [3], .ok [1]] ∧
    (parting.on partingOtherwise).items ((parting.on partingOtherwise).start (some 0)) = [.ok [1], .ok [3]] := by
  have haccepting : partingOtherwise.accepting = parting.graph.accepting := rfl
  have hsorted : parting.graph.IsSorted := by decide
  have hsorted' : partingOtherwise.IsSorted := by decide
  have hperm : ∀ state, (parting.graph.outgoing state).Perm (partingOtherwise.outgoing state) := by
    intro state
    rw [Graph.outgoing_eq_filter hsorted, Graph.outgoing_eq_filter hsorted']
    exact List.Perm.filter _ (by decide)
  refine ⟨haccepting, hperm, parting.sameResults_on haccepting hperm (some 0), ?_, ?_⟩
  · exact items_of_itemsWithin (n := 30) _ (by decide +kernel)
  · exact items_of_itemsWithin (n := 30) _ (by decide +kernel)

end Query

end LexicalTransducer
