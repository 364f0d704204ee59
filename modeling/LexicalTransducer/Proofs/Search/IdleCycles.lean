import LexicalTransducer.Proofs.Search.DepthLimit
import Mathlib.Data.Finset.Card
import Mathlib.Logic.Relation

/-!
# Graphs without idle cycles

Between two consumed symbols a path takes idle arcs only.  If these arcs form no cycle, it passes no state twice there
(`Passed.nodup`), so such a stretch has fewer arcs than the graph has states.  A limit with room for a stretch in front
of each symbol of the input, and for one behind the last, is never exceeded (`depthLimit_notMem_items`).
-/

namespace LexicalTransducer

namespace Findings

variable {a b : Findings} {e : LookupError}

private theorem error?_andThen_ne (ha : a.error? ≠ some e) (hb : b.error? ≠ some e) :
    (a.andThen b).error? ≠ some e := by
  unfold andThen
  split
  · exact ha
  · exact hb

private theorem error?_all_ne {findings : List Findings} (h : ∀ a ∈ findings, a.error? ≠ some e) :
    (all findings).error? ≠ some e := by
  induction findings with
  | nil => simp
  | cons a findings ih =>
    rw [all_cons]
    exact error?_andThen_ne (h a (by simp)) (ih fun b hb => h b (by simp [hb]))

end Findings

/-- The states that a search can be in: the initial one and the ends of all arcs. -/
def Graph.states (g : Graph) (initial : Option Nat) : Finset Nat :=
  (initial.toList ++ g.arcs.toList.flatMap fun a => [a.source, a.target]).toFinset

private theorem Graph.target_mem_states {g : Graph} {a : Arc} {state : Nat} (h : a ∈ g.outgoing state)
    (initial : Option Nat) : a.target ∈ g.states initial := by
  have hmem : ∃ b ∈ g.arcs, a.target = b.source ∨ a.target = b.target :=
    ⟨a, Array.mem_toList_iff.1 (mem_arcs_of_outgoing h), .inr rfl⟩
  simp [states, hmem]

namespace Query

variable (q : Query)

/-- Labels that take a path on without input: epsilon and the flags. -/
def IsIdle (label : Nat) : Prop :=
  label = Symbol.epsilonId ∨ (q.symbols.flag? label).isSome

instance (label : Nat) : Decidable (q.IsIdle label) :=
  inferInstanceAs (Decidable (_ ∨ _))

/-- An arc with epsilon or a flag on the tape that is read leads from one state to the other. -/
def LeadsIdly (state next : Nat) : Prop :=
  ∃ a ∈ q.graph.outgoing state, q.IsIdle (q.read a) ∧ a.target = next

/-- Some state can be reached again along idle arcs only. -/
def HasIdleCycle : Prop :=
  ∃ state, Relation.TransGen q.LeadsIdly state state

variable {q}

/-- In a sorted row the arcs that lead on are those with this source. -/
private theorem leadsIdly_iff (h : q.graph.IsSorted) {state next : Nat} : q.LeadsIdly state next ↔
    ∃ a ∈ q.graph.arcs.toList, a.source = state ∧ q.IsIdle (q.read a) ∧ a.target = next := by
  unfold LeadsIdly
  simp [Graph.outgoing_eq_filter h, and_assoc]

/-- Where idle arcs only lead to greater numbers there is no cycle of them. -/
private theorem not_hasIdleCycle_of_lt (h : ∀ state next, q.LeadsIdly state next → state < next) :
    ¬ q.HasIdleCycle := by
  rintro ⟨state, hcycle⟩
  have hlt : ∀ next, Relation.TransGen q.LeadsIdly state next → state < next := by
    intro next hreach
    induction hreach with
    | single hlead => exact h _ _ hlead
    | tail _ hlead ih => exact Nat.lt_trans ih (h _ _ hlead)
  exact Nat.lt_irrefl _ (hlt state hcycle)

/-! ### A stretch of idle arcs -/

/-- The states that a path has been in since it has consumed its last symbol, the last one first. -/
structure Passed (q : Query) (states : Finset Nat) (b : Branch) (passed : List Nat) : Prop where
  head : passed.head? = some b.state
  chain : passed.IsChain fun next state => q.LeadsIdly state next
  mem_states : ∀ state ∈ passed, state ∈ states
  -- each stretch before this one has had fewer arcs than there are states
  idle_lt : b.idle < b.consumed * (states.card - 1) + passed.length
  consumed_le : b.consumed ≤ q.input.size

variable {states : Finset Nat} {b b₁ : Branch} {a : Arc} {passed : List Nat}

/-- Without idle cycles no state comes twice in a stretch. -/
theorem Passed.nodup (hp : q.Passed states b passed) (hc : ¬ q.HasIdleCycle) : passed.Nodup := by
  have hreach : passed.IsChain (Function.swap (Relation.TransGen q.LeadsIdly)) :=
    hp.chain.imp fun _ _ hlead => .single hlead
  have hne : ∀ {next state}, Function.swap (Relation.TransGen q.LeadsIdly) next state → next ≠ state := by
    rintro next _ hcycle rfl
    exact hc ⟨next, hcycle⟩
  exact hreach.pairwise.imp hne

private theorem Passed.length_le (hp : q.Passed states b passed) (hc : ¬ q.HasIdleCycle) :
    passed.length ≤ states.card := by
  rw [← List.toFinset_card_of_nodup (hp.nodup hc)]
  exact Finset.card_le_card fun state h => hp.mem_states state (List.mem_toFinset.1 h)

private theorem Passed.card_pos (hp : q.Passed states b passed) : 0 < states.card :=
  Finset.card_pos.2 ⟨b.state, hp.mem_states _ (List.mem_of_head? hp.head)⟩

private theorem Passed.idle_le (hp : q.Passed states b passed) (hc : ¬ q.HasIdleCycle) :
    b.idle ≤ (q.input.size + 1) * (states.card - 1) := by
  have hlt := hp.idle_lt
  have hlength := hp.length_le hc
  have hpos := hp.card_pos
  have hconsumed := Nat.mul_le_mul_right (states.card - 1) hp.consumed_le
  rw [Nat.succ_mul]
  omega

private theorem passed_root {state : Nat} (h : state ∈ states) : q.Passed states (q.root state) [state] where
  head := rfl
  chain := .singleton _
  mem_states := by simpa using h
  idle_lt := by simp [root]
  consumed_le := Nat.zero_le _

/-- An idle arc makes the stretch one state longer, and an arc that consumes begins a new one. -/
private theorem Passed.follows (hp : q.Passed states b passed) (hc : ¬ q.HasIdleCycle)
    (ha : a ∈ q.graph.outgoing b.state) (ht : a.target ∈ states) (h : q.Follows b a b₁) :
    ∃ passed₁, q.Passed states b₁ passed₁ := by
  have hidle : q.IsIdle (q.read a) → ∀ env, q.Passed states (q.goOn b a b.consumed env (b.idle + 1))
      (a.target :: passed) := by
    intro hread env
    refine ⟨rfl, List.isChain_cons.2 ⟨?_, hp.chain⟩, ?_, ?_, hp.consumed_le⟩
    · rw [hp.head]
      rintro state ⟨⟩
      exact ⟨a, ha, hread, rfl⟩
    · simpa [ht] using hp.mem_states
    · have hlt := hp.idle_lt
      simp only [goOn, List.length_cons]
      omega
  cases h with
  | epsilon h0 => exact ⟨_, hidle (.inl h0) _⟩
  | flag h0 hs hf => exact ⟨_, hidle (.inr (by simp [hf])) _⟩
  | symbol h0 hs =>
    obtain ⟨hlt, -⟩ := Array.getElem?_eq_some_iff.1 hs
    refine ⟨[a.target], rfl, .singleton _, by simpa using ht, ?_, hlt⟩
    have hlt := hp.idle_lt
    have hlength := hp.length_le hc
    have hpos := hp.card_pos
    simp only [goOn, List.length_singleton, Nat.succ_mul]
    omega

/-! ### The whole search -/

/-- What every arc keeps, and what keeps every arc from an error, keeps the search from that error. -/
private theorem explore_error?_ne {e : LookupError} (holds : Branch → Prop)
    (hstep : ∀ {b a b₁}, holds b → a ∈ q.graph.outgoing b.state → q.tryArc b a = some (.ok b₁) → holds b₁)
    (hfree : ∀ {b a}, holds b → a ∈ q.graph.outgoing b.state → q.tryArc b a ≠ some (.error e))
    {b : Branch} (h : holds b) : (q.explore q.graph.outgoing b).error? ≠ some e := by
  induction b using q.branch_induction with
  | step b ih =>
    have harrive : (q.arrive b).error? ≠ some e := by simp [error?_arrive]
    rw [explore_eq]
    refine Findings.error?_andThen_ne harrive (Findings.error?_all_ne fun found hfound => ?_)
    obtain ⟨a, ha, rfl⟩ := List.mem_map.1 hfound
    unfold exploreArc
    cases htried : q.tryArc b a with
    | none => simp
    | some tried =>
      cases tried with
      | error e' =>
        have hne := hfree h ha
        rw [htried] at hne
        simpa using hne
      | ok b₁ => exact ih a b₁ htried (hstep h ha htried)

/-- The depth limit stops a search only at an arc that could be followed. -/
private theorem exists_follows_of_depthLimit {n : Nat} (h : q.tryArc b a = some (.error (.depthLimit n))) :
    ∃ b₁, q.Follows b a b₁ ∧ q.limits.maxDepth < b₁.idle := by
  rcases follows_or_mismatched h with ⟨b₁, hf, hlimited⟩ | ⟨hm, -⟩
  · exact ⟨b₁, hf, (q.limited_eq_error.1 hlimited.symm).2⟩
  · obtain ⟨f, hf⟩ := Option.isSome_iff_exists.1 hm.isFlag
    unfold tryArc at h
    simp [hm.ne_epsilon, hm.not_consumed, hf, hm.write_ne] at h

/-- Without idle cycles, no path takes more idle arcs than one fewer than there are states, in front of each symbol of
the input and behind the last one.  A search with such a limit never exceeds it. -/
theorem depthLimit_notMem_items (q : Query) (initial : Option Nat) (hc : ¬ q.HasIdleCycle)
    (hlimit : (q.input.size + 1) * ((q.graph.states initial).card - 1) ≤ q.limits.maxDepth) (limit : Nat) :
    .error (.depthLimit limit) ∉ q.items (q.start initial) := by
  rw [items_start, Findings.error_mem_items]
  cases initial with
  | none => simp [findings]
  | some state =>
    have hroot : state ∈ q.graph.states (some state) := by simp [Graph.states]
    refine explore_error?_ne (fun b => ∃ passed, q.Passed (q.graph.states (some state)) b passed) ?_ ?_
      ⟨_, passed_root hroot⟩
    · rintro b a b₁ ⟨passed, hp⟩ ha htried
      exact hp.follows hc ha (Graph.target_mem_states ha _) (tryArc_eq_ok.1 htried).1
    · rintro b a ⟨passed, hp⟩ ha htried
      obtain ⟨b₁, hf, hexceeds⟩ := exists_follows_of_depthLimit htried
      obtain ⟨passed₁, hp₁⟩ := hp.follows hc ha (Graph.target_mem_states ha _) hf
      have hle := hp₁.idle_le hc
      omega

/-- A flag and an arc that consumes nothing, and an arc that consumes and leads back. -/
def winding : Query where
  graph := .ofArcs [⟨0, 2, 2, 1⟩, ⟨1, 0, 0, 2⟩, ⟨2, 3, 1, 0⟩] {2}
  symbols := looping.symbols
  input := #[1]
  tape := .lower
  limits := { maxDepth := 4 }

/-- Four idle arcs are what the limit has to allow here: with one fewer, the search is stopped. -/
theorem depthLimit_notMem_winding : ¬ winding.HasIdleCycle ∧
    (winding.input.size + 1) * ((winding.graph.states (some 0)).card - 1) ≤ winding.limits.maxDepth ∧
    .error (.depthLimit 4) ∉ winding.items (winding.start (some 0)) ∧
    winding.items (winding.start (some 0)) = [.ok [3]] ∧
    (winding.withDepth 3).items ((winding.withDepth 3).start (some 0)) = [.error (.depthLimit 3)] := by
  have hsorted : winding.graph.IsSorted := by decide
  have hc : ¬ winding.HasIdleCycle := by
    refine not_hasIdleCycle_of_lt fun state next hlead => ?_
    obtain ⟨a, ha, rfl, hread, rfl⟩ := (leadsIdly_iff hsorted).1 hlead
    have hforward : ∀ a ∈ winding.graph.arcs.toList, winding.IsIdle (winding.read a) → a.source < a.target := by
      decide +kernel
    exact hforward a ha hread
  have hlimit : (winding.input.size + 1) * ((winding.graph.states (some 0)).card - 1) ≤ winding.limits.maxDepth := by
    decide +kernel
  exact ⟨hc, hlimit, winding.depthLimit_notMem_items (some 0) hc hlimit 4,
    items_of_itemsWithin (n := 40) _ (by decide +kernel), items_of_itemsWithin (n := 40) _ (by decide +kernel)⟩

end Query

end LexicalTransducer
