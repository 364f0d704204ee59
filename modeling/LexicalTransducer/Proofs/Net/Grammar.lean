import LexicalTransducer.Proofs.Net.Arcs
import LexicalTransducer.Proofs.Net.Headers
import LexicalTransducer.Proofs.Net.Reading

/-!
# The grammar of a serialized net

Without its blank lines, the text of a net is five header lines with the line of properties, the alphabet and the
lines of states between them (`IsNetText`).  The texts that are read are those of this form (`exists_ofText_iff`).
-/

namespace LexicalTransducer

/-- The lines of a net, blank ones left out: the headers in their order, one line of properties, definitions that
make an alphabet, and lines that make a states section for it. -/
def IsNetText (lines : List String) : Prop :=
  ∃ (property : String) (sigma states : List String) (entries : List (Int × String)) (stateLines : List StateLine),
    lines.filter (!Text.isBlankLine ·) =
      [Section.net.line, Section.props.line, property, Section.sigma.line] ++ sigma ++
        [Section.states.line] ++ states ++ [Section.closing.line] ∧
    (IsContent property ∧ ∃ ps, Properties.ofLine property = .ok ps) ∧
    List.Forall₂ (fun l e => IsContent l ∧ sigmaLine l = .ok e) sigma entries ∧
    IsAlphabet entries ∧
    List.Forall₂ (fun l e => IsContent l ∧ StateLine.ofLine l = .ok e) states stateLines ∧
    IsStates (entries.map (·.1)) stateLines

namespace Net

namespace Progress

variable {orientation : Orientation} {p p' : Progress} {l : String} {ls : List String}

/-! ### Blank lines -/

theorem reads_blank_iff (hb : Text.isBlankLine l = true) : Reads orientation p l p' ↔ p' = p := by
  constructor
  · intro h
    have hk := LineKind.ofLine_of_isBlankLine hb
    cases h with
    | blank => rfl
    | net h | props h | sigma h | states h | closing h =>
      rw [hk] at h
      cases h
    | property _ h | symbol _ h | arcs _ h =>
      rw [hb] at h
      cases h
  · rintro rfl
    exact .blank (LineKind.ofLine_of_isBlankLine hb) hb

theorem steps_filter_iff :
    Steps (Reads orientation) p (ls.filter (!Text.isBlankLine ·)) p' ↔ Steps (Reads orientation) p ls p' := by
  induction ls generalizing p with
  | nil => rfl
  | cons l ls ih =>
    cases hb : Text.isBlankLine l with
    | true =>
      rw [List.filter_cons_of_neg (by simp [hb]), Steps.cons_iff, ih]
      simp only [reads_blank_iff hb, exists_eq_left]
    | false =>
      rw [List.filter_cons_of_pos (by simp [hb]), Steps.cons_iff, Steps.cons_iff]
      simp only [ih]

/-! ### From one header to the next -/

/-- Where only one line can stand, it stands first. -/
private theorem steps_of_one {P : String → Progress → Prop} {goal : Progress} (hgoal : goal ≠ p)
    (hline : ∀ l p', Text.isBlankLine l = false → (Reads orientation p l p' ↔ P l p'))
    (hls : ∀ l ∈ ls, Text.isBlankLine l = false) : Steps (Reads orientation) p ls goal ↔
      ∃ l rest p', ls = l :: rest ∧ P l p' ∧ Steps (Reads orientation) p' rest goal := by
  cases ls with
  | nil =>
    rw [Steps.nil_iff]
    exact ⟨fun h => absurd h hgoal, fun ⟨_, _, _, h, _⟩ => by cases h⟩
  | cons l ls =>
    have hl := hls l (List.mem_cons_self ..)
    rw [Steps.cons_iff]
    constructor
    · rintro ⟨p', h, hs⟩
      exact ⟨l, ls, p', rfl, (hline l p' hl).1 h, hs⟩
    · rintro ⟨_, _, p', h, hP, hs⟩
      cases h
      exact ⟨p', (hline l p' hl).2 hP, hs⟩

/-- Where lines are read up to a header, some lines are read, the header follows, and the reading goes on. -/
private theorem steps_of_section {σ : Type} (stage next : σ → Progress) {header : Section}
    {read : σ → String → σ → Prop} {goal : Progress} (hgoal : ∀ x, goal ≠ stage x)
    (hline : ∀ x l p', Text.isBlankLine l = false → (Reads orientation (stage x) l p' ↔
      l = header.line ∧ p' = next x ∨ ∃ y, read x l y ∧ p' = stage y))
    (hls : ∀ l ∈ ls, Text.isBlankLine l = false) {x : σ} : Steps (Reads orientation) (stage x) ls goal ↔
      ∃ body rest y, ls = body ++ header.line :: rest ∧ Steps read x body y ∧
        Steps (Reads orientation) (next y) rest goal := by
  -- every line of the section changes `x`, so the induction is for all of them
  induction ls generalizing x with
  | nil =>
    rw [Steps.nil_iff]
    constructor
    · intro h
      exact absurd h (hgoal x)
    · rintro ⟨body, rest, y, h, -⟩
      simp at h
  | cons l ls ih =>
    have hl := hls l (List.mem_cons_self ..)
    have ih := fun {x} => @ih (fun l' hl' => hls l' (List.mem_cons_of_mem _ hl')) x
    rw [Steps.cons_iff]
    constructor
    · rintro ⟨p', h, hs⟩
      rcases (hline x l p' hl).1 h with ⟨rfl, rfl⟩ | ⟨y, hy, rfl⟩
      · exact ⟨[], ls, x, rfl, .nil x, hs⟩
      · obtain ⟨body, rest, z, rfl, hbody, hrest⟩ := ih.1 hs
        exact ⟨l :: body, rest, z, rfl, .cons hy hbody, hrest⟩
    · rintro ⟨body, rest, z, h, hbody, hrest⟩
      cases body with
      | nil =>
        cases h
        rw [Steps.nil_iff.1 hbody] at hrest
        exact ⟨next x, (hline x _ _ hl).2 (.inl ⟨rfl, rfl⟩), hrest⟩
      | cons l' body =>
        cases h
        obtain ⟨y, hy, hbody⟩ := Steps.cons_iff.1 hbody
        exact ⟨stage y, (hline x l _ hl).2 (.inr ⟨y, hy, rfl⟩), ih.2 ⟨body, rest, z, rfl, hbody, hrest⟩⟩

/-! ### The sections -/

section
variable (hb : Text.isBlankLine l = false)
include hb

private theorem reads_start_iff : Reads orientation .start l p' ↔ l = Section.net.line ∧ p' = header := by
  constructor
  · intro h
    cases h with
    | blank _ hb' => exact absurd (hb.symm.trans hb') Bool.false_ne_true
    | net hk => exact ⟨LineKind.ofLine_eq_header.1 hk, rfl⟩
  · rintro ⟨hl, rfl⟩
    exact .net (LineKind.ofLine_eq_header.2 hl)

private theorem reads_header_iff : Reads orientation .header l p' ↔ l = Section.props.line ∧ p' = props none := by
  constructor
  · intro h
    cases h with
    | blank _ hb' => exact absurd (hb.symm.trans hb') Bool.false_ne_true
    | props hk => exact ⟨LineKind.ofLine_eq_header.1 hk, rfl⟩
  · rintro ⟨hl, rfl⟩
    exact .props (LineKind.ofLine_eq_header.2 hl)

private theorem reads_property_iff : Reads orientation (.props none) l p' ↔
    ∃ ps, (IsContent l ∧ Properties.ofLine l = .ok ps) ∧ p' = props (some ps) := by
  constructor
  · intro h
    cases h with
    | blank _ hb' => exact absurd (hb.symm.trans hb') Bool.false_ne_true
    | property hk _ hl => exact ⟨_, ⟨LineKind.ofLine_eq_content.1 hk, hl⟩, rfl⟩
  · rintro ⟨ps, ⟨hc, hl⟩, rfl⟩
    exact .property (LineKind.ofLine_eq_content.2 hc) hb hl

private theorem reads_props_iff {ps : Properties} : Reads orientation (.props (some ps)) l p' ↔
    l = Section.sigma.line ∧ p' = sigma ps {} := by
  constructor
  · intro h
    cases h with
    | blank _ hb' => exact absurd (hb.symm.trans hb') Bool.false_ne_true
    | sigma hk => exact ⟨LineKind.ofLine_eq_header.1 hk, rfl⟩
  · rintro ⟨hl, rfl⟩
    exact .sigma (LineKind.ofLine_eq_header.2 hl)

private theorem reads_sigma_iff {ps : Properties} {b : SymbolTable.Builder} : Reads orientation (.sigma ps b) l p' ↔
    l = Section.states.line ∧ p' = states ps b {} ∨
      ∃ b', (∃ e, (IsContent l ∧ sigmaLine l = .ok e) ∧ b.Defines e b') ∧ p' = sigma ps b' := by
  constructor
  · intro h
    cases h with
    | blank _ hb' => exact absurd (hb.symm.trans hb') Bool.false_ne_true
    | symbol hk _ hl hd => exact .inr ⟨_, ⟨_, ⟨LineKind.ofLine_eq_content.1 hk, hl⟩, hd⟩, rfl⟩
    | states hk => exact .inl ⟨LineKind.ofLine_eq_header.1 hk, rfl⟩
  · rintro (⟨hl, rfl⟩ | ⟨b', ⟨e, ⟨hc, hl⟩, hd⟩, rfl⟩)
    · exact .states (LineKind.ofLine_eq_header.2 hl)
    · exact .symbol (LineKind.ofLine_eq_content.2 hc) hb hl hd

private theorem reads_states_iff {ps : Properties} {b : SymbolTable.Builder} {s : StatesSection} :
    Reads orientation (.states ps b s) l p' ↔ l = Section.closing.line ∧ p' = closed ps b s ∨
      ∃ s', (∃ e, (IsContent l ∧ StateLine.ofLine l = .ok e) ∧ s.Adds orientation b e s') ∧ p' = states ps b s' := by
  constructor
  · intro h
    cases h with
    | blank _ hb' => exact absurd (hb.symm.trans hb') Bool.false_ne_true
    | arcs hk _ hl ha => exact .inr ⟨_, ⟨_, ⟨LineKind.ofLine_eq_content.1 hk, hl⟩, ha⟩, rfl⟩
    | closing hk => exact .inl ⟨LineKind.ofLine_eq_header.1 hk, rfl⟩
  · rintro (⟨hl, rfl⟩ | ⟨s', ⟨e, ⟨hc, hl⟩, ha⟩, rfl⟩)
    · exact .closing (LineKind.ofLine_eq_header.2 hl)
    · exact .arcs (LineKind.ofLine_eq_content.2 hc) hb hl ha

private theorem not_reads_closed {ps : Properties} {b : SymbolTable.Builder} {s : StatesSection} :
    ¬ Reads orientation (.closed ps b s) l p' := by
  intro h
  cases h with
  | blank _ hb' => exact absurd (hb.symm.trans hb') Bool.false_ne_true

end

section
variable {ps : Properties} {b : SymbolTable.Builder} {s : StatesSection} {ps' : Properties}
  {b' : SymbolTable.Builder} {s' : StatesSection} (hls : ∀ l ∈ ls, Text.isBlankLine l = false)
include hls

private theorem steps_closed_iff : Steps (Reads orientation) (.closed ps' b' s') ls (.closed ps b s) ↔
    ls = [] ∧ ps = ps' ∧ b = b' ∧ s = s' := by
  cases ls with
  | nil =>
    rw [Steps.nil_iff, closed.injEq]
    simp
  | cons l ls =>
    constructor
    · intro h
      obtain ⟨p', h, -⟩ := Steps.cons_iff.1 h
      exact absurd h (not_reads_closed (hls l (List.mem_cons_self ..)))
    · rintro ⟨h, -⟩
      cases h

private theorem steps_states_iff : Steps (Reads orientation) (.states ps' b' s') ls (.closed ps b s) ↔
    ∃ body es, ls = body ++ [Section.closing.line] ∧
      List.Forall₂ (fun l e => IsContent l ∧ StateLine.ofLine l = .ok e) body es ∧
      Steps (StatesSection.Adds orientation b') s' es s ∧ ps = ps' ∧ b = b' := by
  refine (steps_of_section (fun s => .states ps' b' s) (fun s => .closed ps' b' s) (by simp)
    (fun _ _ _ hb => reads_states_iff hb) hls).trans ?_
  constructor
  · rintro ⟨body, rest, s₁, rfl, hbody, hrest⟩
    have hrest' : ∀ l ∈ rest, Text.isBlankLine l = false := fun l hl =>
      hls l (List.mem_append_right _ (List.mem_cons_of_mem _ hl))
    obtain ⟨rfl, rfl, rfl, rfl⟩ := (steps_closed_iff hrest').1 hrest
    obtain ⟨es, hes, hadds⟩ := Steps.read_iff.1 hbody
    exact ⟨body, es, rfl, hes, hadds, rfl, rfl⟩
  · rintro ⟨body, es, rfl, hes, hadds, rfl, rfl⟩
    exact ⟨body, [], s, rfl, Steps.read_iff.2 ⟨es, hes, hadds⟩, .nil _⟩

private theorem steps_sigma_iff : Steps (Reads orientation) (.sigma ps' b') ls (.closed ps b s) ↔
    ∃ body es rest, ls = body ++ Section.states.line :: rest ∧
      List.Forall₂ (fun l e => IsContent l ∧ sigmaLine l = .ok e) body es ∧
      Steps SymbolTable.Builder.Defines b' es b ∧
      Steps (Reads orientation) (.states ps b {}) rest (.closed ps b s) ∧ ps = ps' := by
  refine (steps_of_section (fun b => .sigma ps' b) (fun b => .states ps' b {}) (by simp)
    (fun _ _ _ hb => reads_sigma_iff hb) hls).trans ?_
  constructor
  · rintro ⟨body, rest, b₁, rfl, hbody, hrest⟩
    have hrest' : ∀ l ∈ rest, Text.isBlankLine l = false := fun l hl =>
      hls l (List.mem_append_right _ (List.mem_cons_of_mem _ hl))
    obtain ⟨-, -, -, -, -, rfl, rfl⟩ := (steps_states_iff hrest').1 hrest
    obtain ⟨es, hes, hdefines⟩ := Steps.read_iff.1 hbody
    exact ⟨body, es, rest, rfl, hes, hdefines, hrest, rfl⟩
  · rintro ⟨body, es, rest, rfl, hes, hdefines, hrest, rfl⟩
    exact ⟨body, rest, b, rfl, Steps.read_iff.2 ⟨es, hes, hdefines⟩, hrest⟩

/-- The first four lines up to the alphabet. -/
private theorem steps_start_iff : Steps (Reads orientation) .start ls (.closed ps b s) ↔
    ∃ property rest, ls = Section.net.line :: Section.props.line :: property :: Section.sigma.line :: rest ∧
      (IsContent property ∧ Properties.ofLine property = .ok ps) ∧
      Steps (Reads orientation) (.sigma ps {}) rest (.closed ps b s) := by
  have hcons : ∀ {l : String} {ls : List String}, (∀ l' ∈ l :: ls, Text.isBlankLine l' = false) →
      ∀ l' ∈ ls, Text.isBlankLine l' = false := fun h l' hl' => h l' (List.mem_cons_of_mem _ hl')
  constructor
  · intro h
    obtain ⟨_, ls, _, rfl, ⟨rfl, rfl⟩, h⟩ :=
      (steps_of_one (by simp) (fun _ _ hb => reads_start_iff hb) hls).1 h
    replace hls := hcons hls
    obtain ⟨_, ls, _, rfl, ⟨rfl, rfl⟩, h⟩ :=
      (steps_of_one (by simp) (fun _ _ hb => reads_header_iff hb) hls).1 h
    replace hls := hcons hls
    obtain ⟨property, ls, _, rfl, ⟨ps₁, hproperty, rfl⟩, h⟩ :=
      (steps_of_one (by simp) (fun _ _ hb => reads_property_iff hb) hls).1 h
    replace hls := hcons hls
    obtain ⟨_, ls, _, rfl, ⟨rfl, rfl⟩, h⟩ :=
      (steps_of_one (by simp) (fun _ _ hb => reads_props_iff hb) hls).1 h
    replace hls := hcons hls
    obtain ⟨-, -, -, -, -, -, -, rfl⟩ := (steps_sigma_iff hls).1 h
    exact ⟨property, ls, rfl, hproperty, h⟩
  · rintro ⟨property, rest, rfl, ⟨hc, hl⟩, h⟩
    have hb : Text.isBlankLine property = false := hls property (by simp)
    exact .cons (.net (LineKind.ofLine_eq_header.2 rfl)) <| .cons (.props (LineKind.ofLine_eq_header.2 rfl)) <|
      .cons (.property (LineKind.ofLine_eq_content.2 hc) hb hl) <|
      .cons (.sigma (LineKind.ofLine_eq_header.2 rfl)) h

/-- The lines that lead from the start to the end of a net. -/
theorem steps_net_iff : Steps (Reads orientation) .start ls (.closed ps b s) ↔
    ∃ property sigma states entries stateLines,
      ls = [Section.net.line, Section.props.line, property, Section.sigma.line] ++ sigma ++
        [Section.states.line] ++ states ++ [Section.closing.line] ∧
      (IsContent property ∧ Properties.ofLine property = .ok ps) ∧
      List.Forall₂ (fun l e => IsContent l ∧ sigmaLine l = .ok e) sigma entries ∧
      Steps SymbolTable.Builder.Defines {} entries b ∧
      List.Forall₂ (fun l e => IsContent l ∧ StateLine.ofLine l = .ok e) states stateLines ∧
      Steps (StatesSection.Adds orientation b) {} stateLines s := by
  constructor
  · intro h
    obtain ⟨property, rest, rfl, hproperty, h⟩ := (steps_start_iff hls).1 h
    have hrest : ∀ l ∈ rest, Text.isBlankLine l = false := fun l hl => hls l (by simp [hl])
    obtain ⟨sigma, entries, rest, rfl, hentries, hdefines, h, -⟩ := (steps_sigma_iff hrest).1 h
    have hrest' : ∀ l ∈ rest, Text.isBlankLine l = false := fun l hl => hrest l (by simp [hl])
    obtain ⟨states, stateLines, rfl, hstateLines, hadds, -, -⟩ := (steps_states_iff hrest').1 h
    exact ⟨property, sigma, states, entries, stateLines, by simp, hproperty, hentries, hdefines, hstateLines, hadds⟩
  · rintro ⟨property, sigma, states, entries, stateLines, rfl, hproperty, hentries, hdefines, hstateLines, hadds⟩
    have hrest : ∀ l ∈ sigma ++ Section.states.line :: (states ++ [Section.closing.line]),
        Text.isBlankLine l = false := by
      intro l hl
      apply hls
      simp only [List.append_assoc, List.cons_append, List.nil_append]
      exact List.mem_cons_of_mem _ (List.mem_cons_of_mem _ (List.mem_cons_of_mem _ (List.mem_cons_of_mem _ hl)))
    have hrest' : ∀ l ∈ states ++ [Section.closing.line], Text.isBlankLine l = false := fun l hl =>
      hrest l (List.mem_append_right _ (List.mem_cons_of_mem _ hl))
    have hstates : Steps (Reads orientation) (.states ps b {}) (states ++ [Section.closing.line]) (.closed ps b s) :=
      (steps_states_iff hrest').2 ⟨states, stateLines, rfl, hstateLines, hadds, rfl, rfl⟩
    have hsigma := (steps_sigma_iff hrest).2 ⟨sigma, entries, _, rfl, hentries, hdefines, hstates, rfl⟩
    exact (steps_start_iff hls).2 ⟨property, _, by simp, hproperty, hsigma⟩

end

end Progress

/-- A text can be read as a net exactly if its lines are of the form of a net. -/
theorem exists_ofText_iff (text : String) (orientation : Orientation) :
    (∃ net, ofText text orientation = .ok net) ↔ IsNetText (Text.lines text) := by
  have hnonblank : ∀ l ∈ (Text.lines text).filter (!Text.isBlankLine ·), Text.isBlankLine l = false := by
    intro l hl
    simpa using (List.mem_filter.1 hl).2
  constructor
  · rintro ⟨net, h⟩
    obtain ⟨ps, b, s, hs, -⟩ := ofText_eq_ok.1 h
    rw [← Progress.steps_filter_iff, Progress.steps_net_iff hnonblank] at hs
    obtain ⟨property, sigma, states, entries, stateLines, hlines, ⟨hc, hl⟩, hentries, hdefines, hstateLines,
      hadds⟩ := hs
    have halphabet := SymbolTable.Builder.exists_steps_defines_iff.1 ⟨b, hdefines⟩
    have hrecords := SymbolTable.Builder.records_of_steps hdefines
    have hstates := (StatesSection.exists_steps_adds_iff hrecords.symbols halphabet.code_range).1 ⟨s, hadds⟩
    exact ⟨property, sigma, states, entries, stateLines, hlines, ⟨hc, ps, hl⟩, hentries, halphabet, hstateLines,
      hstates⟩
  · rintro ⟨property, sigma, states, entries, stateLines, hlines, ⟨hc, ps, hl⟩, hentries, halphabet, hstateLines,
      hstates⟩
    obtain ⟨b, hdefines⟩ := SymbolTable.Builder.exists_steps_defines_iff.2 halphabet
    have hrecords := SymbolTable.Builder.records_of_steps hdefines
    obtain ⟨s, hadds⟩ := (StatesSection.exists_steps_adds_iff hrecords.symbols halphabet.code_range).2 hstates
    refine ⟨_, ofText_eq_ok.2 ⟨ps, b, s, ?_, rfl⟩⟩
    rw [← Progress.steps_filter_iff, Progress.steps_net_iff hnonblank]
    exact ⟨property, sigma, states, entries, stateLines, hlines, ⟨hc, hl⟩, hentries, hdefines, hstateLines, hadds⟩

end Net

end LexicalTransducer
