import LexicalTransducer.Proofs.Search.Renumbering
import LexicalTransducer.Proofs.Transducer.WellFormed

/-!
# Lookups under other numbers

A text with other codes for its symbols and other numbers for its states is read as a net with the image of its arcs,
in another order.  If the numbers stay apart and the lowest state stays the lowest one (`Renumbering.Fits`), each state
still has its arcs (`outgoing_image`), and so lookups do not see the numbers, but for the order of the results
(`lookups_renumbered`).
-/

namespace LexicalTransducer

/-- The labels that arcs may have: epsilon and what definitions bind. -/
def labelsOf (entries : List (Int × String)) : Set Nat :=
  insert Symbol.epsilonId (codesOf entries)

/-- Epsilon stays what it is, the numbers of labels and of states stay apart, and no state comes to lie below the lowest
one. -/
structure Renumbering.Fits (r : Renumbering) (entries : List (Int × String)) (states : StateSet) : Prop where
  epsilon : r.code Symbol.epsilonId = Symbol.epsilonId
  code : Set.InjOn r.code (labelsOf entries)
  state : Set.InjOn r.state {q | q ∈ states}
  lowest : ∀ q, IsLeast {p | p ∈ states} q → ∀ p ∈ states, r.state q ≤ r.state p

private theorem Renumbering.Fits.code_eq_epsilon_iff {r : Renumbering} {entries : List (Int × String)}
    {states : StateSet} (h : r.Fits entries states) {id : Nat} (hid : id ∈ labelsOf entries) :
    r.code id = Symbol.epsilonId ↔ id = Symbol.epsilonId :=
  r.code_eq_epsilon_iff h.epsilon (Set.mem_insert _ _) h.code hid

/-! ### The table -/

namespace SymbolTable

variable {b b' : Builder} {entries : List (Int × String)} {known : Set Nat} {code : Nat → Nat} {t : SymbolTable}

private theorem Builder.mem_labelsOf (h : b.Records entries) {id : Nat} :
    id ∈ labelsOf entries ↔ ∃ s, b.finish.get? id = some s := by
  rw [exists_get?_iff]
  exact or_congr_right (h.symbols id).symm

private theorem Builder.Renumbered.flag?_eq (h : Renumbered known code b b') {id : Nat} (hid : id ∈ known) :
    b'.finish.flag? (code id) = b.finish.flag? id := by
  unfold flag?
  rw [show b'.finish.symbols[code id]? = b.finish.symbols[id]? from h.symbols id hid]

private theorem Builder.Renumbered.get?_eq (h : Renumbered known code b b') {id : Nat} (hid : id ∈ known)
    (hepsilon : code id = Symbol.epsilonId ↔ id = Symbol.epsilonId) :
    b'.finish.get? (code id) = b.finish.get? id := by
  unfold get?
  simp only [show b'.finish.symbols[code id]? = b.finish.symbols[id]? from h.symbols id hid, hepsilon]

/-- What an input is split into is in the table. -/
private theorem exists_get?_of_split (hf : t.IsFaithful) {text : String} {ids : List Nat} (h : t.split text = .ok ids)
    {id : Nat} (hid : id ∈ ids) : ∃ s, t.get? id = some s := by
  obtain ⟨pieces, hpieces, -⟩ := exists_pieces_of_splitFrom (splitFrom_of_split h)
  obtain ⟨piece, hcode⟩ := exists_code?_of_mem hpieces hid
  obtain ⟨s, hs, -⟩ := hf piece id hcode
  exact ⟨s, by rw [get?, hs]⟩

end SymbolTable

/-! ### The arcs -/

namespace StatesSection

variable {r : Renumbering} {s s' : StatesSection} {known : Set Nat}

private theorem IsImage.accepts_eq (h : s.IsImage r s') (hstate : Set.InjOn r.state {q | q ∈ s.mentioned})
    (hsub : ∀ q ∈ s.accepting, q ∈ s.mentioned) {q : Nat} (hq : q ∈ s.mentioned) :
    s'.accepting.contains (r.state q) = s.accepting.contains q := by
  rw [Bool.eq_iff_iff, Std.ExtTreeSet.contains_iff_mem, Std.ExtTreeSet.contains_iff_mem, h.mem_accepting]
  constructor
  · rintro ⟨p, hp, heq⟩
    exact hstate (hsub p hp) hq heq ▸ hp
  · intro hq
    exact ⟨q, hq, rfl⟩

/-- A state under another number has the same arcs under other numbers, in another order. -/
theorem IsImage.outgoing_image (h : s.IsImage r s') (hcode : Set.InjOn r.code known)
    (hstate : Set.InjOn r.state {q | q ∈ s.mentioned})
    (harcs : ∀ a ∈ s.arcs, a.source ∈ s.mentioned ∧ a.upper ∈ known ∧ a.lower ∈ known ∧ a.target ∈ s.mentioned)
    {q : Nat} (hq : q ∈ s.mentioned) : (((Graph.ofArcs s.arcs.toList s.accepting).outgoing q).map r.arc).Perm
      ((Graph.ofArcs s'.arcs.toList s'.accepting).outgoing (r.state q)) := by
  have hasc : s.arcs.toList.Pairwise fun a b => compare a b = .lt := Std.ExtTreeSet.ordered_toList
  have hasc' : s'.arcs.toList.Pairwise fun a b => compare a b = .lt := Std.ExtTreeSet.ordered_toList
  have hinj : ∀ a ∈ s.arcs, ∀ a' ∈ s.arcs, r.arc a = r.arc a' → a = a' := by
    intro a ha a' ha' heq
    obtain ⟨hsource, hupper, hlower, htarget⟩ := harcs a ha
    obtain ⟨hsource', hupper', hlower', htarget'⟩ := harcs a' ha'
    obtain ⟨h1, h2, h3, h4⟩ := Arc.ext_iff.1 heq
    exact Arc.ext (hstate hsource hsource' h1) (hcode hupper hupper' h2) (hcode hlower hlower' h3)
      (hstate htarget htarget' h4)
  rw [Graph.outgoing_ofArcs hasc, Graph.outgoing_ofArcs hasc']
  refine (List.perm_ext_iff_of_nodup ?_ ((Arc.nodup_of_ascending hasc').filter _)).2 fun a' => ?_
  · refine ((Arc.nodup_of_ascending hasc).filter _).map_on fun a ha a' ha' => ?_
    exact hinj a (Std.ExtTreeSet.mem_toList.1 (List.mem_filter.1 ha).1) a'
      (Std.ExtTreeSet.mem_toList.1 (List.mem_filter.1 ha').1)
  · simp only [List.mem_map, List.mem_filter, Std.ExtTreeSet.mem_toList, decide_eq_true_eq, h.mem_arcs]
    constructor
    · rintro ⟨a, ⟨ha, rfl⟩, rfl⟩
      exact ⟨⟨a, ha, rfl⟩, rfl⟩
    · rintro ⟨⟨a, ha, rfl⟩, hsource⟩
      exact ⟨a, ⟨ha, hstate (harcs a ha).1 hq hsource⟩, rfl⟩

end StatesSection

/-! ### The lookup -/

namespace Transducer

variable {r : Renumbering} {orientation : Orientation} {entries : List (Int × String)} {lines : List StateLine}
  {ps : Properties} {b b' : SymbolTable.Builder} {s s' : StatesSection}

/-- The lowest state under its other number is the lowest one. -/
private theorem initial?_renumbered (ps' : Properties)
    (hfits : r.Fits entries (Net.ofSections orientation ps b s).states)
    (hadds : Steps (StatesSection.Adds orientation b) {} lines s)
    (hadds' : Steps (StatesSection.Adds orientation b') {} (lines.map r.line) s') :
    (ofNet (Net.ofSections orientation ps' b' s')).initial? =
      (ofNet (Net.ofSections orientation ps b s)).initial?.map r.state := by
  have hmem : ∀ q, q ∈ (Net.ofSections orientation ps b s).states ↔ q ∈ s.mentioned :=
    Net.mem_states_ofSections (StatesSection.isLinked_of_steps hadds)
  have hmem' : ∀ q', q' ∈ (Net.ofSections orientation ps' b' s').states ↔ q' ∈ s'.mentioned :=
    Net.mem_states_ofSections (StatesSection.isLinked_of_steps hadds')
  have himage := StatesSection.isImage_of_steps hadds hadds'
  cases hi : (ofNet (Net.ofSections orientation ps b s)).initial? with
  | none =>
    have hnone := initial?_eq_none.1 hi
    refine initial?_eq_none.2 fun q' hq' => ?_
    obtain ⟨q, hq, -⟩ := (himage.mem_mentioned q').1 ((hmem' q').1 hq')
    exact hnone q ((hmem q).2 hq)
  | some q =>
    have hleast := initial?_eq_some.1 hi
    refine initial?_eq_some.2 ⟨(hmem' _).2 ((himage.mem_mentioned _).2 ⟨q, (hmem q).1 hleast.1, rfl⟩), ?_⟩
    intro p' hp'
    obtain ⟨p, hp, rfl⟩ := (himage.mem_mentioned p').1 ((hmem' p').1 hp')
    exact hfits.lowest q hleast p ((hmem p).2 hp)

section
variable (hfits : r.Fits entries (Net.ofSections orientation ps b s).states)
  (hdefines : Steps SymbolTable.Builder.Defines {} entries b)
  (hdefines' : Steps SymbolTable.Builder.Defines {} (entries.map (SymbolTable.Builder.renumberEntry r.code)) b')
  (hadds : Steps (StatesSection.Adds orientation b) {} lines s)
  (hadds' : Steps (StatesSection.Adds orientation b') {} (lines.map r.line) s')
include hfits hdefines hdefines' hadds hadds'

/-- The two nets are searched under numbers that fit. -/
private theorem renumbered_query (ps' : Properties) (limits : Limits) (tape : Tape) {ids : List Nat}
    (hids : ∀ id ∈ ids, id ∈ labelsOf entries) :
    Query.Renumbered r (labelsOf entries) {q | q ∈ s.mentioned}
      (((ofNet (Net.ofSections orientation ps b s)).withLimits limits).query tape ids)
      (((ofNet (Net.ofSections orientation ps' b' s')).withLimits limits).query tape (ids.map r.code)) := by
  have hlinked := StatesSection.isLinked_of_steps hadds
  have himage := StatesSection.isImage_of_steps hadds hadds'
  have htable := SymbolTable.Builder.renumbered_of_steps hfits.code (Set.subset_insert _ _) hdefines hdefines'
  have hrecords := SymbolTable.Builder.records_of_steps hdefines
  have hstate : Set.InjOn r.state {q | q ∈ s.mentioned} :=
    hfits.state.mono fun q hq => (Net.mem_states_ofSections hlinked q).2 hq
  have harcs : ∀ a ∈ s.arcs, a.source ∈ s.mentioned ∧ a.upper ∈ labelsOf entries ∧ a.lower ∈ labelsOf entries ∧
      a.target ∈ s.mentioned := by
    intro a ha
    have hjoins := hlinked.joins a ha
    exact ⟨hjoins.source, (SymbolTable.Builder.mem_labelsOf hrecords).2 hjoins.upper,
      (SymbolTable.Builder.mem_labelsOf hrecords).2 hjoins.lower, hjoins.target⟩
  exact {
    epsilon := hfits.epsilon
    epsilon_mem := Set.mem_insert _ _
    code := hfits.code
    arcs := fun a ha => (harcs a (Std.ExtTreeSet.mem_toList.1 ha)).2
    outgoing := fun q hq => himage.outgoing_image hfits.code hstate harcs hq
    accepts := fun q hq => himage.accepts_eq hstate hlinked.accepting hq
    flag := fun id hid => htable.flag?_eq hid
    featureCount := congrArg FlagNames.featureCount htable.names
    input := List.map_toArray.symm
    input_mem := fun id hid => hids id (List.mem_toArray.1 hid)
    tape := rfl
    limits := rfl
  }

/-- Lookups of a text on one tape, where an output is shown as the same thing under other numbers. -/
private theorem sameResults_lookup {α : Type} (ps' : Properties) (limits : Limits) (tape : Tape)
    {render render' : List Nat → α}
    (hrender : ∀ v, (∀ id ∈ v, id ∈ labelsOf entries) → render' (v.map r.code) = render v) (text : String) :
    SameResults (((ofNet (Net.ofSections orientation ps b s)).withLimits limits).lookup tape render text).toList
      (((ofNet (Net.ofSections orientation ps' b' s')).withLimits limits).lookup tape render' text).toList := by
  have htable := SymbolTable.Builder.renumbered_of_steps hfits.code (Set.subset_insert _ _) hdefines hdefines'
  have hsplit : b'.finish.split text = (b.finish.split text).map (List.map r.code) :=
    SymbolTable.split_of_codes htable.codes text
  simp only [Results.toList_eq, render_lookup]
  cases hs : b.finish.split text with
  | error e =>
    rw [hs] at hsplit
    rw [outputs_lookup_of_error (t := (ofNet (Net.ofSections orientation ps b s)).withLimits limits) hs,
      outputs_lookup_of_error (t := (ofNet (Net.ofSections orientation ps' b' s')).withLimits limits) hsplit]
    exact .refl []
  | ok ids =>
    rw [hs] at hsplit
    rw [outputs_lookup (t := (ofNet (Net.ofSections orientation ps b s)).withLimits limits) hs,
      outputs_lookup (t := (ofNet (Net.ofSections orientation ps' b' s')).withLimits limits) hsplit]
    have hfaithful : b.finish.IsFaithful :=
      hdefines.invariant (I := fun b => b.finish.IsFaithful)
        (fun _ _ _ hb hd => SymbolTable.Builder.isFaithful_define hb hd) SymbolTable.Builder.isFaithful_start
    have hids : ∀ id ∈ ids, id ∈ labelsOf entries := fun id hid =>
      (SymbolTable.Builder.mem_labelsOf (SymbolTable.Builder.records_of_steps hdefines)).2
        (SymbolTable.exists_get?_of_split hfaithful hs hid)
    have hquery := renumbered_query hfits hdefines hdefines' hadds hadds' ps' limits tape hids
    have hinitial : ∀ state, (ofNet (Net.ofSections orientation ps b s)).initial? = some state →
        state ∈ s.mentioned := fun state hstate =>
      (Net.mem_states_ofSections (StatesSection.isLinked_of_steps hadds) state).1 (initial?_eq_some.1 hstate).1
    have hresults := (hquery.sameResults hinitial).map render'
    rw [← initial?_renumbered ps' hfits hadds hadds', List.map_map] at hresults
    -- an output is shown as it was once its labels have their other numbers
    refine Eq.mp (congrArg (fun items => SameResults items _) ?_) hresults
    refine List.map_congr_left fun item hitem => ?_
    cases item with
    | error e => rfl
    | ok v => exact congrArg Except.ok (hrender v (hquery.mem_known hitem))

end

/-- Texts that differ in the codes of their symbols and the numbers of their states give the same results to every
lookup, up to their order, or both give an error. -/
theorem lookups_renumbered {text text' : String} {orientation : Orientation} {t t' : Transducer} {r : Renumbering}
    {entries : List (Int × String)} {lines : List StateLine} (h : ofText text orientation = .ok t)
    (h' : ofText text' orientation = .ok t') (hs : Net.HasSections text entries lines)
    (hs' : Net.HasSections text' (entries.map (SymbolTable.Builder.renumberEntry r.code)) (lines.map r.line))
    (hfits : r.Fits entries t.states) (limits : Limits) (input : String) :
    SameResults ((t.withLimits limits).analyze input).toList ((t'.withLimits limits).analyze input).toList ∧
    SameResults ((t.withLimits limits).generate input).toList ((t'.withLimits limits).generate input).toList := by
  obtain ⟨n, hn, rfl⟩ := map_eq_ok.1 h
  obtain ⟨n', hn', rfl⟩ := map_eq_ok.1 h'
  obtain ⟨ps, b, s, hdefines, hadds, rfl⟩ := (Net.sections_of_ofText hn).2 _ _ hs
  obtain ⟨ps', b', s', hdefines', hadds', rfl⟩ := (Net.sections_of_ofText hn').2 _ _ hs'
  have htable := SymbolTable.Builder.renumbered_of_steps hfits.code (Set.subset_insert _ _) hdefines hdefines'
  have hordinary : ∀ v, (∀ id ∈ v, id ∈ labelsOf entries) →
      b'.finish.ordinary (v.map r.code) = b.finish.ordinary v := by
    intro v hv
    refine SymbolTable.ordinary_map fun id hid => ?_
    rw [htable.get?_eq (hv id hid) (hfits.code_eq_epsilon_iff (hv id hid))]
  exact ⟨sameResults_lookup hfits hdefines hdefines' hadds hadds' ps' limits .lower
      (fun v hv => SymbolTable.analysis_of_ordinary (hordinary v hv)) input,
    sameResults_lookup hfits hdefines hdefines' hadds hadds' ps' limits .upper
      (fun v hv => SymbolTable.form_of_ordinary (hordinary v hv)) input⟩

/-- Other numbers for the fork: its last symbol comes before the one in the middle, and its last state before the one
in the middle. -/
def swapping : Renumbering where
  code n := if n = 3 then 9 else if n = 5 then 2 else n
  state n := if n = 0 then 1 else if n = 1 then 7 else if n = 2 then 6 else n

/-- The fork under other numbers. -/
def swappedText : String :=
  "\n".intercalate ["##foma-net 1.0##", "##props##", "1 1 1 1 1 1 1 1 1 1 1 1", "##sigma##", "9 a", "4 b", "2 c",
    "##states##", "1 0 2 7 0", "9 4 6", "7 9 6 0", "6 -1 -1 1", "##end##"]

/-- What `swappedText` is read as inverted. -/
def swapped : Net where
  properties := Net.fork.properties
  symbols :=
    { symbols := .ofList [(9, Symbol.grapheme 'a'), (4, .grapheme 'b'), (2, .grapheme 'c')]
      codes := .ofList [("a", 9), ("b", 4), ("c", 2)] }
  arcs := [⟨1, 2, 0, 7⟩, ⟨1, 4, 9, 6⟩, ⟨7, 9, 9, 6⟩]
  intermediate := .ofList [1, 7, 6] \ {6}
  accepting := {6}
  orientation := .invert

private theorem fits_swapping : swapping.Fits [(3, "a"), (4, "b"), (5, "c")] (ofNet forkInverted).states := by
  have hcodes : ∀ id ∈ labelsOf [(3, "a"), (4, "b"), (5, "c")], id = 0 ∨ id = 3 ∨ id = 4 ∨ id = 5 := by
    intro id hid
    rcases hid with rfl | hid
    · exact .inl rfl
    · have hmem : (id : Int) ∈ [3, 4, 5] := hid
      simp only [List.mem_cons, List.not_mem_nil, or_false] at hmem
      omega
  have hstates : ∀ q ∈ (ofNet forkInverted).states, q = 0 ∨ q = 1 ∨ q = 2 := by
    intro q hq
    rw [← Std.ExtTreeSet.mem_toList, show (ofNet forkInverted).states.toList = [0, 1, 2] by decide +kernel] at hq
    simpa using hq
  have hzero : 0 ∈ (ofNet forkInverted).states := by decide +kernel
  refine ⟨rfl, fun id hid id' hid' heq => ?_, fun q hq q' hq' heq => ?_, fun q hq p hp => ?_⟩
  · rcases hcodes id hid with rfl | rfl | rfl | rfl <;> rcases hcodes id' hid' with rfl | rfl | rfl | rfl <;>
      first | rfl | cases heq
  · rcases hstates q hq with rfl | rfl | rfl <;> rcases hstates q' hq' with rfl | rfl | rfl <;>
      first | rfl | cases heq
  · obtain rfl : q = 0 := Nat.le_zero.1 (hq.2 hzero)
    rcases hstates p hp with rfl | rfl | rfl <;> decide

/-- The inverted fork gives its two analyses of `a` in another order once its numbers are swapped. -/
theorem lookups_swapped : ofText (Net.forkText Net.forkStates) .invert = .ok (ofNet forkInverted) ∧
    ofText swappedText .invert = .ok (ofNet swapped) ∧
    SameResults (((ofNet forkInverted).withLimits { maxDepth := 5 }).analyze "a").toList
      (((ofNet swapped).withLimits { maxDepth := 5 }).analyze "a").toList ∧
    (((ofNet forkInverted).withLimits { maxDepth := 5 }).analyze "a").toList = [.ok ["b"], .ok ["ca"]] ∧
    (((ofNet swapped).withLimits { maxDepth := 5 }).analyze "a").toList = [.ok ["ca"], .ok ["b"]] := by
  have h : ofText (Net.forkText Net.forkStates) .invert = .ok (ofNet forkInverted) :=
    map_eq_ok.2 ⟨_, toOption_eq_some.1 (by decide +kernel), rfl⟩
  have h' : ofText swappedText .invert = .ok (ofNet swapped) :=
    map_eq_ok.2 ⟨_, toOption_eq_some.1 (by decide +kernel), rfl⟩
  have hs : Net.HasSections (Net.forkText Net.forkStates) [(3, "a"), (4, "b"), (5, "c")]
      [.explicit 0 0 5 1 false, .implied 3 4 2, .explicit 1 3 3 2 false, .explicit 2 (-1) (-1) (-1) true] :=
    ⟨"1 1 1 1 1 1 1 1 1 1 1 1", ["3 a", "4 b", "5 c"],
      .cons (by decide +kernel) (.cons (by decide +kernel) (.cons (by decide +kernel) .nil)),
      ["0 0 5 1 0", "3 4 2", "1 3 2 0", "2 -1 -1 1"], by decide +kernel,
      .cons (by decide +kernel) (.cons (by decide +kernel) (.cons (by decide +kernel)
        (.cons (by decide +kernel) .nil)))⟩
  have hs' : Net.HasSections swappedText [(9, "a"), (4, "b"), (2, "c")]
      [.explicit 1 0 2 7 false, .implied 9 4 6, .explicit 7 9 9 6 false, .explicit 6 (-1) (-1) (-1) true] :=
    ⟨"1 1 1 1 1 1 1 1 1 1 1 1", ["9 a", "4 b", "2 c"],
      .cons (by decide +kernel) (.cons (by decide +kernel) (.cons (by decide +kernel) .nil)),
      ["1 0 2 7 0", "9 4 6", "7 9 6 0", "6 -1 -1 1"], by decide +kernel,
      .cons (by decide +kernel) (.cons (by decide +kernel) (.cons (by decide +kernel)
        (.cons (by decide +kernel) .nil)))⟩
  have hchars : "a".toList = ['a'] := by decide +kernel
  have hsplit : forkInverted.symbols.split "a" = .ok [3] := by
    have hlong : forkInverted.symbols.longestText = 1 := by decide +kernel
    have hmatch : forkInverted.symbols.longestMatch? ['a'] 1 = some (3, 1) := by decide +kernel
    simp [SymbolTable.split, hchars, hlong, SymbolTable.splitFrom, hmatch, Except.map]
  have hsplit' : swapped.symbols.split "a" = .ok [9] := by
    have hlong : swapped.symbols.longestText = 1 := by decide +kernel
    have hmatch : swapped.symbols.longestMatch? ['a'] 1 = some (9, 1) := by decide +kernel
    simp [SymbolTable.split, hchars, hlong, SymbolTable.splitFrom, hmatch, Except.map]
  have hinitial : (ofNet forkInverted).initial? = some 0 := by
    rw [initial?, ← Std.ExtTreeSet.head?_toList]
    decide +kernel
  have hinitial' : (ofNet swapped).initial? = some 1 := by
    rw [initial?, ← Std.ExtTreeSet.head?_toList]
    decide +kernel
  have houtputs : (((ofNet forkInverted).withLimits { maxDepth := 5 }).analyze "a").outputs = [.ok [4], .ok [5, 3]] :=
    outputs_of_itemsWithin (n := 30) hinitial hsplit (by decide +kernel)
  have houtputs' : (((ofNet swapped).withLimits { maxDepth := 5 }).analyze "a").outputs = [.ok [2, 9], .ok [4]] :=
    outputs_of_itemsWithin (n := 30) hinitial' hsplit' (by decide +kernel)
  refine ⟨h, h', (lookups_renumbered (r := swapping) h h' hs hs' fits_swapping { maxDepth := 5 } "a").1, ?_, ?_⟩
  · rw [Results.toList_eq, houtputs]
    decide +kernel
  · rw [Results.toList_eq, houtputs']
    decide +kernel

end Transducer

end LexicalTransducer
