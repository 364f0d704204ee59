import LexicalTransducer.Proofs.Search.Comparison
import LexicalTransducer.Proofs.Search.Correspondence
import LexicalTransducer.Proofs.Symbol.Order

/-!
# Searches in lockstep

Two searches that take the same arcs in the same order, and on which each arc has the same outcome, find the same in
the same order and stop with the same error (`Lockstep.findings_eq`).  So do searches that differ in the numbers of
their flags only: their rows of value numbers differ in width and contents, but stand for the same environment
(`Shares`), and that is all a flag looks at (`items_under`).
-/

namespace LexicalTransducer.Query

/-- An arc has the same outcome for two paths that go side by side. -/
inductive TriedTogether (rel : Branch → Branch → Prop) :
    Option (Except LookupError Branch) → Option (Except LookupError Branch) → Prop
  | skipped : TriedTogether rel none none
  | stopped (e : LookupError) : TriedTogether rel (some (.error e)) (some (.error e))
  | followed {b b' : Branch} (h : rel b b') : TriedTogether rel (some (.ok b)) (some (.ok b'))

/-- The paths of one search go side by side with those of the other, along the same arcs. -/
structure Lockstep (q q' : Query) (rel : Branch → Branch → Prop) : Prop where
  output : ∀ {b b'}, rel b b' → b'.output = b.output
  arrives : ∀ {b b'}, rel b b' → (q'.Arrives b' ↔ q.Arrives b)
  outgoing : ∀ {b b'}, rel b b' → q'.graph.outgoing b'.state = q.graph.outgoing b.state
  tryArc : ∀ {b b'}, rel b b' → ∀ a, TriedTogether rel (q.tryArc b a) (q'.tryArc b' a)

variable {q q' : Query} {rel : Branch → Branch → Prop}

/-- Behind paths that go side by side both searches find the same, in the same order. -/
private theorem Lockstep.explore_eq (hl : Lockstep q q' rel) {b b' : Branch} (h : rel b b') :
    q'.explore q'.graph.outgoing b' = q.explore q.graph.outgoing b := by
  have hsame : Findings.Composes fun a a' => a' = a := ⟨rfl, fun ha hb => by rw [ha, hb]⟩
  refine hsame.explore rel id ?_ ?_ ?_ h
  · intro b b' h
    show (if q'.Arrives b' then { outputs := [b'.output] } else {} : Findings) =
      if q.Arrives b then { outputs := [b.output] } else {}
    rw [hl.output h]
    exact if_congr (hl.arrives h) rfl rfl
  · intro b b' h
    rw [hl.outgoing h, List.map_id]
  · intro b b' a h ih
    have htried := hl.tryArc h a
    unfold exploreArc
    generalize hb : q.tryArc b a = tried at htried
    generalize hb' : q'.tryArc b' a = tried' at htried
    rw [id_eq, hb']
    cases htried with
    | skipped | stopped e => rfl
    | followed hrel => exact ih hb hrel

theorem Lockstep.findings_eq (hl : Lockstep q q' rel) (initial : Option Nat)
    (h : ∀ state, rel (q.root state) (q'.root state)) : q'.findings initial = q.findings initial := by
  cases initial with
  | none => rfl
  | some state => exact hl.explore_eq (h state)

/-! ### Other numbers for the names of flags -/

/-- The same search with other symbols under the label numbers. -/
def under (q : Query) (t : SymbolTable) : Query :=
  { q with symbols := t }

/-- Two paths that differ in their rows only, and the rows stand for the same environment. -/
inductive Shares (names names' : FlagNames) : Branch → Branch → Prop
  | intro {b : Branch} {row : Array Nat} {env : NamedEnv} (h : names.Represents b.env env)
      (h' : names'.Represents row env) : Shares names names' b { b with env := row }

variable {names names' : FlagNames} {t : SymbolTable}

/-- A label is the same flag on both sides, or no flag on either. -/
private theorem flag?_agree (h : q.symbols.Agree names names' t) (id : Nat) :
    q.symbols.flag? id = none ∧ t.flag? id = none ∨
      ∃ f f' named, q.symbols.flag? id = some f ∧ t.flag? id = some f' ∧ names.Numbers f named ∧
        names'.Numbers f' named ∧ f'.text = f.text := by
  have hs := h.symbols id
  unfold SymbolTable.flag?
  generalize q.symbols.symbols[id]? = s at hs
  generalize t.symbols[id]? = s' at hs
  cases hs with
  | none => exact .inl ⟨rfl, rfl⟩
  | some hs =>
    cases hs with
    | refl hflag =>
      rename_i s
      cases s with
      | flag f => cases hflag
      | epsilon | unknown | identity | grapheme c | multichar text => exact .inl ⟨rfl, rfl⟩
    | flag hf hf' ht => exact .inr ⟨_, _, _, rfl, rfl, hf, hf', ht⟩

private theorem isVisible_under (h : q.symbols.Agree names names' t) (label : Nat) :
    (q.under t).isVisible label = q.isVisible label := by
  unfold isVisible
  rcases flag?_agree h label with ⟨hf, hf'⟩ | ⟨f, f', -, hf, hf', -⟩
  · rw [hf, show (q.under t).symbols.flag? label = none from hf']
  · rw [hf, show (q.under t).symbols.flag? label = some f' from hf']
    rfl

private theorem limited_under {b b' : Branch} (h : Shares names names' b b') :
    TriedTogether (Shares names names') (some (q.limited b)) (some ((q.under t).limited b')) := by
  have hidle : b'.idle = b.idle := by
    cases h
    rfl
  unfold limited
  rw [hidle]
  show TriedTogether _ _ (some (if q.limits.maxDepth < b.idle then _ else _))
  split
  · exact .stopped _
  · exact .followed h

private theorem shares_goOn (h : q.symbols.Agree names names' t) (b : Branch) (a : Arc) (consumed idle : Nat)
    {row row' : Array Nat} {env : NamedEnv} (hr : names.Represents row env) (hr' : names'.Represents row' env)
    (other : Array Nat) : Shares names names' (q.goOn b a consumed row idle)
      ((q.under t).goOn { b with env := other } a consumed row' idle) := by
  have heq : (q.under t).goOn { b with env := other } a consumed row' idle =
      { q.goOn b a consumed row idle with env := row' } := by
    simp only [goOn, isVisible_under h]
    rfl
  rw [heq]
  exact .intro hr hr'

/-- Flags with other numbers for the same names do the same to two paths with the same environment. -/
private theorem lockstep_under (h : q.symbols.Agree names names' t) : Lockstep q (q.under t) (Shares names names') where
  output hb := by
    cases hb
    rfl
  arrives hb := by
    cases hb
    exact Iff.rfl
  outgoing hb := by
    cases hb
    rfl
  tryArc {b b'} hb a := by
    obtain ⟨hr, hr'⟩ := hb
    refine tryArc_rel (P := TriedTogether (Shares names names')) Iff.rfl Iff.rfl Iff.rfl ?_ .skipped
      (limited_under (shares_goOn h b a _ _ hr hr' _)) (limited_under (shares_goOn h b a _ _ hr hr' _))
    rcases flag?_agree h (q.read a) with hnone | ⟨f, f', named, hf, hf', hnumbers, hnumbers', htext⟩
    · exact .inl hnone
    · refine .inr ⟨f, f', hf, hf', ?_, ?_, ?_⟩
      · -- both tests are the test of the named flag on the environment that the rows share
        exact (hr'.test_eq h.isNumbering' hnumbers').trans (hr.test_eq h.isNumbering hnumbers).symm
      · rw [htext]
        exact .stopped _
      · exact limited_under (shares_goOn h b a _ _ (hr.apply h.isNumbering hnumbers)
          (hr'.apply h.isNumbering' hnumbers') _)

/-- The numbers that the names of flags have do not matter to a search. -/
theorem items_under (h : q.symbols.Agree names names' t) (initial : Option Nat) :
    (q.under t).items ((q.under t).start initial) = q.items (q.start initial) := by
  rw [items_start, items_start, (lockstep_under h).findings_eq]
  intro state
  have hr := FlagNames.represents_start h.isNumbering
  have hr' := FlagNames.represents_start h.isNumbering'
  rw [← h.featureCount] at hr
  rw [← h.featureCount'] at hr'
  exact .intro (b := q.root state) hr hr'

end LexicalTransducer.Query
