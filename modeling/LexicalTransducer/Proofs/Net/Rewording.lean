import LexicalTransducer.Proofs.Net.Grammar
import LexicalTransducer.Proofs.Net.Totals

/-!
# Other words for the same states section

To spell out a source that a line leaves out, to write a line twice, and to permute lines of which none leaves its
source out change nothing of what a states section adds up to (`exists_steps_of_reworded`).  So texts that differ in
this way only are read as the same net (`states_of_ofText`).
-/

namespace LexicalTransducer

open StateLine

/-- Ways to write the lines of a states section otherwise. -/
inductive Reworded : List StateLine → List StateLine → Prop
  /-- A source that is left out is spelled out, without a final flag. -/
  | spelledOut (earlier : List StateLine) {source upper lower target : Int} (later : List StateLine)
      (h : latestSource? earlier.reverse = some source) :
      Reworded (earlier ++ implied upper lower target :: later)
        (earlier ++ explicit source upper lower target false :: later)
  | doubled (earlier : List StateLine) (l : StateLine) (later : List StateLine) :
      Reworded (earlier ++ l :: later) (earlier ++ l :: l :: later)
  | permuted {lines lines' : List StateLine} (h : ∀ l ∈ lines, ¬ l.LeavesOutSource) (hp : lines.Perm lines') :
      Reworded lines lines'

namespace StatesSection

variable {orientation : Orientation} {b : SymbolTable.Builder} {s s' : StatesSection} {l : StateLine}
  {lines lines' : List StateLine}

/-! ### A line that changes nothing -/

private theorem insert_of_mem {α : Type} [Ord α] [Std.TransOrd α] [Std.LawfulEqOrd α] {t : Std.ExtTreeSet α} {x : α}
    (h : x ∈ t) : t.insert x = t := by
  apply Std.ExtTreeSet.ext_mem
  intro y
  rw [Std.ExtTreeSet.mem_insert, Std.LawfulEqOrd.compare_eq_iff_eq]
  constructor
  · rintro (rfl | hy)
    · exact h
    · exact hy
  · exact .inr

private theorem addSource_of_mem {source : Nat} {final : Bool} (h : source ∈ s.mentioned)
    (hfinal : final = true → source ∈ s.accepting) : s.addSource source final = s := by
  unfold addSource
  rw [insert_of_mem h]
  cases final with
  | false => rfl
  | true => rw [insert_of_mem (hfinal rfl), ite_self]

private theorem addArc_addArc (s : StatesSection) (a : Arc) :
    (s.addArc orientation a).addArc orientation a = s.addArc orientation a := by
  unfold addArc
  simp only [insert_of_mem Std.ExtTreeSet.mem_insert_self]

/-- A line that has been read changes nothing when it is read again. -/
private theorem Adds.again (h : Adds orientation b s l s') : Adds orientation b s' l s' := by
  cases l with
  | sentinel => exact adds_sentinel_iff.2 rfl
  | implied upper lower target =>
    obtain ⟨source, a, -, ha, rfl⟩ := adds_implied_iff.1 h
    have hlast : (s.addArc orientation a).lastSource = some source := by
      rw [← (eq_of_arc ha).1]
      rfl
    exact adds_implied_iff.2 ⟨source, a, hlast, ha, (addArc_addArc s a).symm⟩
  | explicit source upper lower target final =>
    obtain ⟨q, hq, h⟩ := adds_explicit_iff.1 h
    refine adds_explicit_iff.2 ⟨q, hq, ?_⟩
    have hmentioned : q ∈ (s.addSource q final).mentioned := mem_mentioned_addSource.2 (.inr rfl)
    have haccepting : final = true → q ∈ (s.addSource q final).accepting :=
      fun hfinal => mem_accepting_addSource.2 (.inr ⟨hfinal, rfl⟩)
    by_cases hgives : 0 ≤ upper ∧ 0 ≤ lower ∧ 0 ≤ target
    · rw [if_pos hgives] at h ⊢
      obtain ⟨a, ha, rfl⟩ := h
      refine ⟨a, ha, ?_⟩
      rw [addSource_of_mem (mem_mentioned_addArc.2 (.inl hmentioned)) haccepting, addArc_addArc]
    · rw [if_neg hgives] at h ⊢
      rw [h, addSource_of_mem hmentioned haccepting]

/-- The latest source is a state that the section mentions. -/
def KnowsSource (s : StatesSection) : Prop :=
  ∀ source, s.lastSource = some source → source ∈ s.mentioned ∧ NetField.state source = .ok source

theorem KnowsSource.adds (s : StatesSection) (l : StateLine) (s' : StatesSection) (h : s.KnowsSource)
    (ha : Adds orientation b s l s') : s'.KnowsSource := by
  cases l with
  | sentinel =>
    rw [adds_sentinel_iff.1 ha]
    exact h
  | implied upper lower target =>
    obtain ⟨source, a, hs, harc, rfl⟩ := adds_implied_iff.1 ha
    rintro _ ⟨⟩
    rw [(eq_of_arc harc).1]
    exact ⟨mem_mentioned_addArc.2 (.inl (h source hs).1), (h source hs).2⟩
  | explicit source upper lower target final =>
    obtain ⟨q, hq, ha⟩ := adds_explicit_iff.1 ha
    have hmentioned : q ∈ (s.addSource q final).mentioned := mem_mentioned_addSource.2 (.inr rfl)
    by_cases hgives : 0 ≤ upper ∧ 0 ≤ lower ∧ 0 ≤ target
    · rw [if_pos hgives] at ha
      obtain ⟨a, harc, rfl⟩ := ha
      rintro _ ⟨⟩
      rw [(eq_of_arc harc).1]
      obtain ⟨rfl, -⟩ := state_eq_ok.1 hq
      exact ⟨mem_mentioned_addArc.2 (.inl hmentioned), hq⟩
    · rw [if_neg hgives] at ha
      rw [ha]
      intro source' hs
      exact ⟨mem_mentioned_addSource.2 (.inl (h source' hs).1), (h source' hs).2⟩

/-- To spell out the source of a line, if it is known, is to say the same. -/
private theorem Adds.spelledOut {source : Nat} {upper lower target : Int} (hs : s.KnowsSource)
    (hlast : s.lastSource = some source) (h : Adds orientation b s (.implied upper lower target) s') :
    Adds orientation b s (.explicit source upper lower target false) s' := by
  obtain ⟨hmentioned, hstate⟩ := hs source hlast
  obtain ⟨source', a, hs', ha, rfl⟩ := adds_implied_iff.1 h
  cases hlast.symm.trans hs'
  have hgives : 0 ≤ upper ∧ 0 ≤ lower ∧ 0 ≤ target := by
    obtain ⟨-, rfl, rfl, rfl⟩ := eq_of_arc ha
    exact ⟨Int.natCast_nonneg _, Int.natCast_nonneg _, Int.natCast_nonneg _⟩
  refine adds_explicit_iff.2 ⟨source, hstate, ?_⟩
  rw [if_pos hgives, addSource_of_mem hmentioned (fun h => by cases h)]
  exact ⟨a, ha, rfl⟩

/-! ### A whole section -/

private theorem giveArc_of_no_implied (h : ∀ l ∈ lines, ¬ l.LeavesOutSource) {a : Arc} :
    GiveArc lines a ↔ ∃ l ∈ lines, l.Gives [] a := by
  have hgives : ∀ earlier, ∀ l ∈ lines, l.Gives earlier a ↔ l.Gives [] a := by
    intro earlier l hl
    cases l with
    | sentinel | explicit => exact Iff.rfl
    | implied => exact absurd trivial (h _ hl)
  constructor
  · rintro ⟨earlier, l, later, rfl, hl⟩
    have hmem : l ∈ earlier ++ l :: later := List.mem_append_right _ (List.mem_cons_self ..)
    exact ⟨l, hmem, (hgives earlier l hmem).1 hl⟩
  · rintro ⟨l, hmem, hl⟩
    obtain ⟨earlier, later, rfl⟩ := List.append_of_mem hmem
    exact ⟨earlier, l, later, rfl, (hgives earlier l hmem).2 hl⟩

/-- Lines that name their sources add up to the same in any order. -/
private theorem Totals.of_perm (h : s.Totals lines) (h' : s'.Totals lines')
    (himplied : ∀ l ∈ lines, ¬ l.LeavesOutSource) (hp : lines.Perm lines') :
    s'.arcs = s.arcs ∧ s'.mentioned = s.mentioned ∧ s'.accepting = s.accepting := by
  have himplied' : ∀ l ∈ lines', ¬ l.LeavesOutSource := fun l hl => himplied l (hp.mem_iff.2 hl)
  have hgive : ∀ a, GiveArc lines' a ↔ GiveArc lines a := by
    intro a
    rw [giveArc_of_no_implied himplied, giveArc_of_no_implied himplied']
    exact exists_congr fun l => and_congr_left fun _ => hp.mem_iff.symm
  refine ⟨Std.ExtTreeSet.ext_mem fun a => ?_, Std.ExtTreeSet.ext_mem fun q => ?_,
    Std.ExtTreeSet.ext_mem fun q => ?_⟩
  · rw [h.mem_arcs, h'.mem_arcs, hgive]
  · rw [h.mem_mentioned, h'.mem_mentioned]
    simp only [hgive, NameSource, hp.mem_iff]
  · rw [h.mem_accepting, h'.mem_accepting]
    simp only [NameFinal, hp.mem_iff]

/-- Lines in other words are accepted too, and they add up to the same. -/
theorem exists_steps_of_reworded {codes : List Int} (hsymbols : ∀ id : Nat, id ∈ b.symbols ↔ (id : Int) ∈ codes)
    (hcodes : ∀ c ∈ codes, 0 ≤ c ∧ c < Text.wordCount32) (hr : Reworded lines lines')
    (h : Steps (Adds .normal b) {} lines s) : ∃ s', Steps (Adds .normal b) {} lines' s' ∧
      s'.arcs = s.arcs ∧ s'.mentioned = s.mentioned ∧ s'.accepting = s.accepting := by
  cases hr with
  | @spelledOut earlier source upper lower target later hlatest =>
    obtain ⟨s₁, h₁, h⟩ := Steps.append_iff.1 h
    obtain ⟨s₂, ha, h₂⟩ := Steps.cons_iff.1 h
    rw [← (totals_of_steps h₁).lastSource] at hlatest
    obtain ⟨q, hlast, rfl⟩ := Option.map_eq_some_iff.1 hlatest
    have hknows : s₁.KnowsSource := h₁.invariant KnowsSource.adds fun source hs => by cases hs
    exact ⟨s, Steps.append_iff.2 ⟨s₁, h₁, .cons (ha.spelledOut hknows hlast) h₂⟩, rfl, rfl, rfl⟩
  | doubled earlier l later =>
    obtain ⟨s₁, h₁, h⟩ := Steps.append_iff.1 h
    obtain ⟨s₂, ha, h₂⟩ := Steps.cons_iff.1 h
    exact ⟨s, Steps.append_iff.2 ⟨s₁, h₁, .cons ha (.cons ha.again h₂)⟩, rfl, rfl, rfl⟩
  | permuted himplied hp =>
    have hstates := (exists_steps_adds_iff hsymbols hcodes).1 ⟨s, h⟩
    have hstates' : IsStates codes lines' := by
      refine ⟨fun l hl => hstates.admissible l (hp.mem_iff.2 hl), ?_⟩
      rintro earlier l later rfl hl
      exact absurd hl (himplied l (hp.mem_iff.2 (by simp)))
    obtain ⟨s', h'⟩ := (exists_steps_adds_iff hsymbols hcodes).2 hstates'
    exact ⟨s', h', (totals_of_steps h).of_perm (totals_of_steps h') himplied hp⟩

end StatesSection

/-! ### The text of a section -/

/-- The first token of a line starts where the line does, unless that is a blank. -/
private theorem Text.exists_tokens_cons {line : String} {c : Char} {cs : List Char} (hline : line.toList = c :: cs)
    (hc : isBlank c = false) : ∃ token rest, tokens line = String.ofList (c :: token) :: rest := by
  unfold tokens
  rw [hline, List.splitOnP_cons_eq_if_modifyHead, if_neg (by simp [hc])]
  cases hpieces : cs.splitOnP isBlank with
  | nil => exact absurd hpieces (List.splitOnP_ne_nil _ _)
  | cons token rest => exact ⟨token, _, rfl⟩

/-- A line of the states section is no header, for its first field is a number. -/
private theorem StateLine.isContent_of_ofLine {line : String} {l : StateLine} (h : StateLine.ofLine line = .ok l) :
    IsContent line := by
  have hmark : ∀ cs, line.toList ≠ '#' :: cs := by
    intro cs hcs
    obtain ⟨token, rest, htokens⟩ := Text.exists_tokens_cons hcs (by decide)
    have hint : NetField.integer (String.ofList ('#' :: token)) =
        .error (.invalidInteger (String.ofList ('#' :: token))) := by
      simp [NetField.integer, Text.int64?, Text.signed?, Text.digits?]
    simp only [ofLine, htokens, NetField.integers, hint] at h
    split at h <;> cases h
  have hhash : ∀ rest : String, line ≠ "##" ++ rest := by
    rintro rest rfl
    refine hmark ('#' :: rest.toList) ?_
    rw [String.toList_append]
    rfl
  refine ⟨fun s hs => hhash (s.name ++ "##") ?_, fun rest hrest => hhash ("foma-net" ++ rest ++ "##") ?_⟩
  · rw [hs, Section.line, String.append_assoc]
  · have hname : "##foma-net" = "##" ++ "foma-net" := by decide +kernel
    rw [hrest, hname]
    simp only [String.append_assoc]

namespace Net

/-- Without its blank lines the text is these lines, a states section that says this, and the end of a net. -/
def HasStates (text : String) (start : List String) (lines : List StateLine) : Prop :=
  ∃ states, (Text.lines text).filter (!Text.isBlankLine ·) =
      start ++ [Section.states.line] ++ states ++ [Section.closing.line] ∧
    List.Forall₂ (fun l e => StateLine.ofLine l = .ok e) states lines

/-- The lines in front of a states section give these properties and this alphabet. -/
def OpensStates (start : List String) (ps : Properties) (b : SymbolTable.Builder) : Prop :=
  ∃ property sigma entries,
    start = [Section.net.line, Section.props.line, property, Section.sigma.line] ++ sigma ∧
    (IsContent property ∧ Properties.ofLine property = .ok ps) ∧
    List.Forall₂ (fun l e => IsContent l ∧ sigmaLine l = .ok e) sigma entries ∧
    Steps SymbolTable.Builder.Defines {} entries b

variable {orientation : Orientation} {text text' : String} {net : Net} {start : List String}
  {lines lines' : List StateLine} {ps : Properties} {b : SymbolTable.Builder}

/-- No header stands among lines of content. -/
private theorem header_notMem {β : Type} {read : String → β → Prop} {ls : List String} {es : List β}
    (h : List.Forall₂ (fun l e => IsContent l ∧ read l e) ls es) (s : Section) : s.line ∉ ls := by
  intro hmem
  exact (((List.forall₂_and_left ls es).1 h).1 _ hmem).1 s rfl

private theorem OpensStates.notMem (h : OpensStates start ps b) : Section.states.line ∉ start := by
  obtain ⟨property, sigma, entries, rfl, ⟨hproperty, -⟩, hsigma, -⟩ := h
  intro hmem
  simp only [List.cons_append, List.nil_append, List.mem_cons] at hmem
  rcases hmem with hnet | hprops | hprop | hsig | hmem
  · exact absurd hnet (by decide +kernel)
  · exact absurd hprops (by decide +kernel)
  · exact hproperty.1 .states hprop.symm
  · exact absurd hsig (by decide +kernel)
  · exact header_notMem hsigma .states hmem

private theorem OpensStates.codes (h : OpensStates start ps b) : ∃ codes : List Int,
    (∀ id : Nat, id ∈ b.symbols ↔ (id : Int) ∈ codes) ∧ ∀ c ∈ codes, 0 ≤ c ∧ c < Text.wordCount32 := by
  obtain ⟨-, -, entries, -, -, -, hdefines⟩ := h
  have halphabet := SymbolTable.Builder.exists_steps_defines_iff.1 ⟨b, hdefines⟩
  exact ⟨_, (SymbolTable.Builder.records_of_steps hdefines).symbols, halphabet.code_range⟩

/-- A text is divided at the header of its states section in one way. -/
theorem HasStates.unique (hopens : OpensStates start ps b) (h : HasStates text start lines)
    {start' : List String} (h' : HasStates text start' lines') : start' = start ∧ lines' = lines := by
  obtain ⟨states, hlines, hread⟩ := h
  obtain ⟨states', hlines', hread'⟩ := h'
  have hmem : Section.states.line ∉ states ++ [Section.closing.line] := by
    intro hmem
    rcases List.mem_append.1 hmem with hmem | hmem
    · exact header_notMem (hread.imp fun _ _ h => ⟨StateLine.isContent_of_ofLine h, h⟩) .states hmem
    · exact absurd (List.mem_singleton.1 hmem) (by decide +kernel)
  rw [hlines] at hlines'
  simp only [List.append_assoc, List.singleton_append] at hlines'
  obtain ⟨rfl, -, hstates⟩ := (List.append_cons_inj_of_notMem hopens.notMem hmem).1 hlines'
  cases List.append_cancel_right hstates
  refine ⟨rfl, List.right_unique_forall₂' (fun l e e' he he' => ?_) hread' hread⟩
  exact Except.ok.inj (he.symm.trans he')

/-- A text is read as what stands in front of its states section and what its lines of states add up to. -/
theorem ofText_eq_ok_iff : ofText text orientation = .ok net ↔ ∃ start lines ps b s,
    HasStates text start lines ∧ OpensStates start ps b ∧ Steps (StatesSection.Adds orientation b) {} lines s ∧
      net = ofSections orientation ps b s := by
  have hnonblank : ∀ l ∈ (Text.lines text).filter (!Text.isBlankLine ·), Text.isBlankLine l = false := by
    intro l hl
    simpa using (List.mem_filter.1 hl).2
  rw [ofText_eq_ok]
  constructor
  · rintro ⟨ps, b, s, hs, rfl⟩
    rw [← Progress.steps_filter_iff, Progress.steps_net_iff hnonblank] at hs
    obtain ⟨property, sigma, states, entries, lines, hlines, hproperty, hentries, hdefines, hread, hadds⟩ := hs
    exact ⟨_, lines, ps, b, s, ⟨states, hlines, hread.imp fun _ _ h => h.2⟩,
      ⟨property, sigma, entries, rfl, hproperty, hentries, hdefines⟩, hadds, rfl⟩
  · rintro ⟨_, lines, ps, b, s, ⟨states, hlines, hread⟩, ⟨property, sigma, entries, rfl, hproperty, hentries,
      hdefines⟩, hadds, rfl⟩
    refine ⟨ps, b, s, ?_, rfl⟩
    rw [← Progress.steps_filter_iff, Progress.steps_net_iff hnonblank]
    exact ⟨property, sigma, states, entries, lines, hlines, hproperty, hentries, hdefines,
      hread.imp fun _ _ h => ⟨StateLine.isContent_of_ofLine h, h⟩, hadds⟩

/-- The net holds what these lines say: their arcs in ascending order, and their states. -/
structure Says (net : Net) (lines : List StateLine) : Prop where
  ascending : net.arcs.Pairwise fun a b => compare a b = .lt
  mem_arcs : ∀ a, a ∈ net.arcs ↔ GiveArc lines a
  mem_accepting : ∀ q, q ∈ net.accepting ↔ NameFinal lines q
  mem_states : ∀ q, q ∈ net.states ↔ NameSource lines q ∨ ∃ a, GiveArc lines a ∧ a.target = q

private theorem says_ofSections {s : StatesSection} (h : s.Totals lines) :
    (ofSections orientation ps b s).Says lines where
  ascending := Std.ExtTreeSet.ordered_toList
  mem_arcs a := by
    rw [← h.mem_arcs]
    exact Std.ExtTreeSet.mem_toList
  mem_accepting := h.mem_accepting
  mem_states q := by
    show q ∈ (s.mentioned \ s.accepting) ∪ s.accepting ↔ _
    rw [Std.ExtTreeSet.mem_union_iff, Std.ExtTreeSet.mem_diff_iff, ← h.mem_mentioned, h.mem_accepting]
    -- an accepting state is spelled out as a source
    have hnamed : NameFinal lines q → q ∈ s.mentioned := by
      rintro ⟨upper, lower, target, hl⟩
      exact (h.mem_mentioned q).2 (.inl ⟨upper, lower, target, true, hl⟩)
    tauto

/-- A text that is read says with its states section what the net holds, and in other words it is read as the same
net. -/
theorem states_of_ofText (h : ofText text .normal = .ok net) : (∃ start lines, HasStates text start lines) ∧
    ∀ start lines, HasStates text start lines → net.Says lines ∧
      ∀ text' lines', HasStates text' start lines' → Reworded lines lines' → ofText text' .normal = .ok net := by
  obtain ⟨start, lines, ps, b, s, hhas, hopens, hadds, rfl⟩ := ofText_eq_ok_iff.1 h
  refine ⟨⟨start, lines, hhas⟩, ?_⟩
  intro start' lines' hhas'
  obtain ⟨rfl, rfl⟩ := HasStates.unique hopens hhas hhas'
  refine ⟨says_ofSections (StatesSection.totals_of_steps hadds), ?_⟩
  intro text' lines'' hhas'' hreworded
  obtain ⟨codes, hsymbols, hcodes⟩ := hopens.codes
  obtain ⟨s', hadds', harcs, hmentioned, haccepting⟩ :=
    StatesSection.exists_steps_of_reworded hsymbols hcodes hreworded hadds
  refine ofText_eq_ok_iff.2 ⟨_, _, ps, b, s', hhas'', hopens, hadds', ?_⟩
  simp only [ofSections, harcs, hmentioned, haccepting]

/-- A net with these lines of states. -/
def forkText (states : List String) : String :=
  "\n".intercalate (["##foma-net 1.0##", "##props##", "1 1 1 1 1 1 1 1 1 1 1 1", "##sigma##", "3 a", "4 b", "5 c",
    "##states##"] ++ states ++ ["##end##"])

/-- Two arcs leave the first state of this net, and the line of the second one leaves its source out. -/
def forkStates : List String :=
  ["0 0 5 1 0", "3 4 2", "1 3 2 0", "2 -1 -1 1"]

/-- What the fork is read as. -/
def fork : Net where
  properties := ⟨1, 1, 1, 1, 1, 1, some true, some true, some true, some true, some true, 1, none⟩
  symbols :=
    { symbols := .ofList [(3, Symbol.grapheme 'a'), (4, Symbol.grapheme 'b'), (5, Symbol.grapheme 'c')]
      codes := .ofList [("a", 3), ("b", 4), ("c", 5)]
      featureCount := 0 }
  arcs := [⟨0, 0, 5, 1⟩, ⟨0, 3, 4, 2⟩, ⟨1, 3, 3, 2⟩]
  intermediate := .ofList [0, 1, 2] \ {2}
  accepting := {2}
  orientation := .normal

theorem ofText_fork : ofText (forkText forkStates) .normal = .ok fork :=
  toOption_eq_some.1 (by decide +kernel)

/-- The fork with the source of its second arc spelled out is the same net. -/
theorem ofText_fork_spelledOut : ofText (forkText forkStates) .normal = .ok fork ∧
    fork.Says [.explicit 0 0 5 1 false, .implied 3 4 2, .explicit 1 3 3 2 false, .explicit 2 (-1) (-1) (-1) true] ∧
    ofText (forkText ["0 0 5 1 0", "0 3 4 2 0", "1 3 2 0", "2 -1 -1 1"]) .normal = .ok fork := by
  have hfirst : StateLine.ofLine "0 0 5 1 0" = .ok (.explicit 0 0 5 1 false) := by decide +kernel
  have himplied : StateLine.ofLine "3 4 2" = .ok (.implied 3 4 2) := by decide +kernel
  have hspelled : StateLine.ofLine "0 3 4 2 0" = .ok (.explicit 0 3 4 2 false) := by decide +kernel
  have hthird : StateLine.ofLine "1 3 2 0" = .ok (.explicit 1 3 3 2 false) := by decide +kernel
  have hlast : StateLine.ofLine "2 -1 -1 1" = .ok (.explicit 2 (-1) (-1) (-1) true) := by decide +kernel
  have hstates := (states_of_ofText ofText_fork).2
    ["##foma-net 1.0##", "##props##", "1 1 1 1 1 1 1 1 1 1 1 1", "##sigma##", "3 a", "4 b", "5 c"] _
    ⟨forkStates, by decide +kernel, .cons hfirst (.cons himplied (.cons hthird (.cons hlast .nil)))⟩
  refine ⟨ofText_fork, hstates.1, ?_⟩
  refine hstates.2 _ _ ⟨["0 0 5 1 0", "0 3 4 2 0", "1 3 2 0", "2 -1 -1 1"], by decide +kernel, ?_⟩
    (.spelledOut [.explicit 0 0 5 1 false] _ rfl)
  exact .cons hfirst (.cons hspelled (.cons hthird (.cons hlast .nil)))

end Net

end LexicalTransducer
