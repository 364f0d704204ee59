import LexicalTransducer.Proofs.Search.Comparison
import LexicalTransducer.Proofs.Search.Mirror

/-!
# Flags only prune

Where epsilon stands for every flag, a search can follow every path that it follows with the flags: a flag that lets a
path through is an arc that consumes and emits nothing (`Follows.withoutFlags`).  So the flags only take results away,
and the order of the others stays as it is (`items_sublist_withoutFlags`).
-/

namespace LexicalTransducer

/-! ### The graph without flags -/

/-- An index looks at nothing of an arc but its source. -/
private theorem ArcIndex.ofArcs_map {f : Arc → Arc} (hf : ∀ a, (f a).source = a.source) (arcs : List Arc) :
    ofArcs (arcs.map f) = ofArcs arcs := by
  have hadd : ∀ (index : ArcIndex) (e : Arc × Nat), index.add (Prod.map f id e) = index.add e := by
    rintro index ⟨a, place⟩
    simp only [add, Prod.map, hf, id_eq]
  simp only [ofArcs, List.zipIdx_map, List.foldl_map, hadd]

private theorem Graph.outgoing_ofArcs_map {f : Arc → Arc} (hf : ∀ a, (f a).source = a.source) (g : Graph)
    (state : Nat) : (ofArcs (g.arcs.toList.map f) g.accepting).outgoing state = (g.outgoing state).map f := by
  have hindex : (ofArcs (g.arcs.toList.map f) g.accepting).index = g.index := by
    rw [g.index_eq]
    exact ArcIndex.ofArcs_map hf _
  unfold outgoing arcsFrom
  rw [hindex]
  cases g.index[state]? with
  | none => rfl
  | some entry => simp [ofArcs, List.extract_eq_drop_take', List.map_drop, List.map_take]

/-- Epsilon for a flag, and any other label for itself. -/
def SymbolTable.withoutFlag (t : SymbolTable) (label : Nat) : Nat :=
  if (t.flag? label).isSome then Symbol.epsilonId else label

def Arc.withoutFlags (t : SymbolTable) (a : Arc) : Arc :=
  { a with upper := t.withoutFlag a.upper, lower := t.withoutFlag a.lower }

/-- The same search with epsilon for every flag. -/
def Query.withoutFlags (q : Query) : Query :=
  { q with graph := .ofArcs (q.graph.arcs.toList.map (Arc.withoutFlags q.symbols)) q.graph.accepting }

/-! ### Outputs that are left -/

namespace Findings

/-- If no error stops one of two searches, the first one finds some of the outputs of the other one, in their order. -/
def Within (a a' : Findings) : Prop :=
  a.error? = none → a'.error? = none → a.outputs.Sublist a'.outputs

private theorem composes_within : Composes Within where
  nothing _ _ := List.Sublist.refl _
  andThen ha hb hn hn' := by
    obtain ⟨hna, hnb⟩ := error?_andThen_eq_none.1 hn
    obtain ⟨hna', hnb'⟩ := error?_andThen_eq_none.1 hn'
    rw [outputs_andThen hna, outputs_andThen hna']
    exact (ha hna hna').append (hb hnb hnb')

end Findings

/-! ### The search without flags -/

namespace Query

variable {q : Query} {b b₁ : Branch} {a : Arc}

private theorem read_withoutFlags (q : Query) (a : Arc) :
    q.withoutFlags.read (a.withoutFlags q.symbols) = q.symbols.withoutFlag (q.read a) := by
  unfold read withoutFlags Arc.withoutFlags
  cases q.tape <;> rfl

private theorem write_withoutFlags (q : Query) (a : Arc) :
    q.withoutFlags.write (a.withoutFlags q.symbols) = q.symbols.withoutFlag (q.write a) := by
  unfold write withoutFlags Arc.withoutFlags
  cases q.tape <;> rfl

/-- An arc emits the same with epsilon for its flags. -/
private theorem goOn_withoutFlags (b : Branch) (a : Arc) (consumed idle : Nat) (env env' : Array Nat) :
    q.withoutFlags.goOn { b with env := env' } (a.withoutFlags q.symbols) consumed env' idle =
      { q.goOn b a consumed env idle with env := env' } := by
  have hvisible : ∀ label, q.withoutFlags.isVisible label = q.isVisible label := fun _ => rfl
  simp only [goOn, write_withoutFlags, hvisible, SymbolTable.withoutFlag]
  by_cases hflag : (q.symbols.flag? (q.write a)).isSome
  · have hnot : ¬ q.isVisible (q.write a) = true := by
      rw [isVisible_iff]
      rintro ⟨-, hnone⟩
      simp [hnone] at hflag
    rw [if_pos hflag, if_neg hnot]
    simp [isVisible, Arc.withoutFlags]
  · rw [if_neg hflag]
    rfl

/-- An arc that can be followed can be followed with epsilon for its flags, whatever has been set there. -/
theorem Follows.withoutFlags (h : q.Follows b a b₁) (hin : q.IsUnflagged) (env : Array Nat) :
    q.withoutFlags.Follows { b with env } (a.withoutFlags q.symbols) { b₁ with env } := by
  have hread := q.read_withoutFlags a
  cases h with
  | epsilon h0 =>
    rw [← goOn_withoutFlags]
    refine .epsilon (hread.trans ?_)
    simp [SymbolTable.withoutFlag, h0]
  | symbol h0 hs =>
    have hmem : q.read a ∈ q.input.toList := by
      rw [getElem?_input] at hs
      exact List.mem_of_getElem? hs
    have hsame : q.symbols.withoutFlag (q.read a) = q.read a := by
      simp [SymbolTable.withoutFlag, hin _ hmem]
    rw [← goOn_withoutFlags]
    refine .symbol ?_ ?_
    · rwa [hread, hsame]
    · rwa [hread, hsame]
  | flag h0 hs hf hw ht =>
    -- the flag has let the path through, and epsilon does so too
    rw [← goOn_withoutFlags]
    refine .epsilon (hread.trans ?_)
    simp [SymbolTable.withoutFlag, hf]

private theorem tryArc_withoutFlags (h : q.tryArc b a = some (.ok b₁)) (hin : q.IsUnflagged) (env : Array Nat) :
    q.withoutFlags.tryArc { b with env } (a.withoutFlags q.symbols) = some (.ok { b₁ with env }) := by
  obtain ⟨hf, hi⟩ := tryArc_eq_ok.1 h
  exact tryArc_eq_ok.2 ⟨hf.withoutFlags hin env, hi⟩

private theorem findings_within_withoutFlags (q : Query) (hin : q.IsUnflagged) (initial : Option Nat) :
    (q.findings initial).Within (q.withoutFlags.findings initial) := by
  cases initial with
  | none => exact fun _ _ => List.Sublist.refl _
  | some state =>
    -- the paths go side by side, but the environments differ as soon as a flag has been left out
    refine Findings.composes_within.explore (fun b b' => ∃ env, b' = { b with env })
      (Arc.withoutFlags q.symbols) ?_ ?_ ?_ ⟨(q.root state).env, rfl⟩
    · rintro b _ ⟨env, rfl⟩
      exact fun _ _ => List.Sublist.refl _
    · rintro b _ ⟨env, rfl⟩
      exact Graph.outgoing_ofArcs_map (f := Arc.withoutFlags q.symbols) (fun _ => rfl) q.graph b.state
    · rintro b _ a ⟨env, rfl⟩ ih
      unfold exploreArc
      cases htried : q.tryArc b a with
      | none => exact fun _ _ => List.nil_sublist _
      | some tried =>
        cases tried with
        | error e => exact fun hn => by simp at hn
        | ok b₁ =>
          rw [tryArc_withoutFlags htried hin env]
          exact ih htried ⟨env, rfl⟩

/-- For an input without flags, the results of a search are among the results with epsilon for every flag, in the same
order and as often, unless one of the two searches ends with an error. -/
theorem items_sublist_withoutFlags (q : Query) (initial : Option Nat) (hin : q.IsUnflagged)
    (hnone : ∀ e, .error e ∉ q.items (q.start initial))
    (hnone' : ∀ e, .error e ∉ q.withoutFlags.items (q.withoutFlags.start initial)) :
    (q.items (q.start initial)).Sublist (q.withoutFlags.items (q.withoutFlags.start initial)) := by
  simp only [items_start, Findings.error_mem_items] at hnone hnone' ⊢
  have hn := Option.eq_none_iff_forall_ne_some.2 hnone
  have hn' := Option.eq_none_iff_forall_ne_some.2 hnone'
  simp only [Findings.items, hn, hn', Option.toList_none, List.map_nil, List.append_nil]
  exact (q.findings_within_withoutFlags hin initial hn hn').map _

/-- A way with a flag that sets a feature and a way around it, both to a flag that does not allow the feature. -/
def barred : Query where
  graph := .ofArcs [⟨0, 0, 0, 1⟩, ⟨0, 2, 2, 1⟩, ⟨0, 3, 1, 3⟩, ⟨1, 4, 4, 2⟩, ⟨2, 1, 1, 3⟩] {3}
  symbols :=
    { symbols := .ofList [(1, Symbol.grapheme 'a'), (2, .flag ⟨.positive, 0, 1, "@P.A.X@"⟩), (3, .grapheme 'b'),
        (4, .flag ⟨.disallowFeature, 0, unset, "@D.A@"⟩)]
      codes := .ofList [("a", 1), ("b", 3)]
      featureCount := 1 }
  input := #[1]
  tape := .lower

/-- Without flags the result `[1]` comes twice, and with flags once. -/
theorem items_sublist_barred : barred.IsUnflagged ∧
    (∀ e, .error e ∉ barred.items (barred.start (some 0))) ∧
    (∀ e, .error e ∉ barred.withoutFlags.items (barred.withoutFlags.start (some 0))) ∧
    barred.items (barred.start (some 0)) = [.ok [1], .ok [3]] ∧
    barred.withoutFlags.items (barred.withoutFlags.start (some 0)) = [.ok [1], .ok [1], .ok [3]] ∧
    (barred.items (barred.start (some 0))).Sublist
      (barred.withoutFlags.items (barred.withoutFlags.start (some 0))) := by
  have hin : barred.IsUnflagged := by
    unfold IsUnflagged
    decide +kernel
  have hitems : barred.items (barred.start (some 0)) = [.ok [1], .ok [3]] :=
    items_of_itemsWithin (n := 40) _ (by decide +kernel)
  have hitems' : barred.withoutFlags.items (barred.withoutFlags.start (some 0)) = [.ok [1], .ok [1], .ok [3]] :=
    items_of_itemsWithin (n := 40) _ (by decide +kernel)
  have hnone : ∀ e, .error e ∉ barred.items (barred.start (some 0)) := by simp [hitems]
  have hnone' : ∀ e, .error e ∉ barred.withoutFlags.items (barred.withoutFlags.start (some 0)) := by simp [hitems']
  exact ⟨hin, hnone, hnone', hitems, hitems', barred.items_sublist_withoutFlags (some 0) hin hnone hnone'⟩

end Query

end LexicalTransducer
