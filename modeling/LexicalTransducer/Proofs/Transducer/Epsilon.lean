import LexicalTransducer.Proofs.Net.Sections
import LexicalTransducer.Proofs.Symbol.Epsilon
import LexicalTransducer.Proofs.Transducer.RoundTrip

/-!
# Epsilon in a table and in a search

A search passes a label over if it is number zero (`Query.isSilent_iff`), whatever the table says of it.  The table
agrees with the search exactly if the definitions keep number zero for epsilon.
-/

namespace LexicalTransducer

namespace Query

variable {q : Query} {label : Nat}

/-- A label that a search follows without input, and that it leaves out of the output. -/
structure IsSilent (q : Query) (label : Nat) : Prop where
  follow : ∀ w f a, q.read a = label → q.follow w f a = q.enter w a.target (q.write a) f.consumed
  enter : ∀ w state consumed w', q.enter w state label consumed = .moved w' → w'.output = w.output

private theorem isSilent_epsilonId : q.IsSilent Symbol.epsilonId where
  follow w f a ha := by rw [follow_eq, if_pos ha]
  enter w state consumed w' h := by
    unfold Query.enter at h
    split at h
    · cases h
    · cases h
      rfl

/-- An arc with these labels on the tape that is read and on the other one. -/
private theorem exists_arc (read write : Nat) : ∃ a, q.read a = read ∧ q.write a = write := by
  cases ht : q.tape with
  | upper => exact ⟨⟨0, read, write, 0⟩, by rw [Query.read, ht]; rfl, by rw [Query.write, ht]; rfl⟩
  | lower => exact ⟨⟨0, write, read, 0⟩, by rw [Query.read, ht]; rfl, by rw [Query.write, ht]; rfl⟩

/-- In front of a path there is always room for an arc. -/
private theorem enter_of_frames_nil (q : Query) {w : Workspace} (h : w.frames = []) (state label consumed : Nat) :
    ∃ w', q.enter w state label consumed = .moved w' ∧
      w'.output = if q.isVisible label then w.output.push label else w.output := by
  unfold Query.enter
  rw [h, if_neg (by simp)]
  refine ⟨_, rfl, ?_⟩
  split <;> rfl

/-- Number zero is the only label that is passed over: another one shows in the output, or it is a flag, and that has to
stand opposite itself. -/
theorem isSilent_iff : q.IsSilent label ↔ label = Symbol.epsilonId := by
  constructor
  · intro h
    by_contra h0
    obtain ⟨w', hmoved, houtput⟩ := q.enter_of_frames_nil (w := Workspace.empty 0) rfl 0 label 0
    have hinvisible : ¬ q.isVisible label = true := by
      intro hv
      rw [h.enter _ _ _ _ hmoved, if_pos hv] at houtput
      exact absurd (congrArg Array.size houtput) (by simp)
    obtain ⟨flag, hflag⟩ : ∃ flag, q.symbols.flag? label = some flag := by
      by_contra hnone
      exact hinvisible (isVisible_iff.2 ⟨h0, Option.eq_none_iff_forall_ne_some.2 (not_exists.1 hnone)⟩)
    -- behind the input, the flag with another label opposite it is an error
    obtain ⟨a, hread, hwrite⟩ := exists_arc (q := q) label (label + 1)
    have hfollow := h.follow (Workspace.empty 0) { state := 0, consumed := q.input.size } a hread
    obtain ⟨w', hmoved, -⟩ :=
      q.enter_of_frames_nil (w := Workspace.empty 0) rfl a.target (q.write a) q.input.size
    rw [hmoved, follow_eq, hread, if_neg h0, if_neg (by simp), hflag, hwrite] at hfollow
    simp at hfollow
  · rintro rfl
    exact isSilent_epsilonId

/-- No output shows number zero. -/
private theorem epsilonId_notMem_output {initial : Option Nat} {output : List Nat}
    (h : .ok output ∈ q.items (q.start initial)) : Symbol.epsilonId ∉ output := by
  obtain ⟨route, -, rfl⟩ := exists_isAccepting h
  exact fun hid => (isVisible_iff.1 (isVisible_of_mem_outputOf hid)).1 rfl

end Query

namespace Net

open SymbolTable

variable {text : String} {orientation : Orientation} {net : Net} {entries : List (Int × String)}
  {lines : List StateLine}

/-- The labels that are bound to epsilon, those that are shown as epsilon and those that a search passes over are the
same exactly if the definitions keep number zero for epsilon.  Then no input is split into it and no output shows
it. -/
theorem epsilon_iff_keepsEpsilon (h : ofText text orientation = .ok net) (hs : HasSections text entries lines) :
    ((∀ id, net.symbols.get? id = some .epsilon ↔ id = Symbol.epsilonId) ↔ KeepsEpsilon entries) ∧
    (∀ q : Query, q.symbols = net.symbols →
      ((∀ label, Arc.labelText net.symbols label = Symbol.epsilonText ↔ q.IsSilent label) ↔ KeepsEpsilon entries)) ∧
    (KeepsEpsilon entries →
      (∀ input ids, net.symbols.split input = .ok ids → Symbol.epsilonId ∉ ids) ∧
      ∀ q : Query, q.symbols = net.symbols → ∀ initial output, .ok output ∈ q.items (q.start initial) →
        ∀ id ∈ output, Arc.labelText net.symbols id ≠ Symbol.epsilonText) := by
  obtain ⟨ps, b, s, hdefines, -, hnet⟩ := (sections_of_ofText h).2 _ _ hs
  have hsymbols : net.symbols = b.finish := by
    rw [hnet]
    rfl
  rw [hsymbols]
  have htable := Builder.get?_finish_eq_epsilon_iff hdefines
  refine ⟨htable, fun q _ => ?_, fun hkeeps => ⟨fun input ids => Builder.ne_epsilonId_of_mem_split hdefines hkeeps,
    fun q _ initial output houtput id hid hshown => ?_⟩⟩
  · simp only [Query.isSilent_iff, Builder.labelText_eq_epsilonText_iff hdefines]
    exact htable
  · rw [Builder.labelText_eq_epsilonText_iff hdefines, htable.2 hkeeps id] at hshown
    subst hshown
    exact Query.epsilonId_notMem_output houtput hid

/-- A net with the arc `7:3` between two states. -/
def arcText (sigma : List String) : String :=
  "\n".intercalate (["##foma-net 1.0##", "##props##", "1 1 1 1 1 1 1 1 1 1 1 1", "##sigma##"] ++ sigma ++
    ["##states##", "0 7 3 1 0", "1 -1 -1 1", "##end##"])

/-- What such a text is read as, with these symbols in its table. -/
def arcNet (symbols : List (Nat × Symbol)) (codes : List (String × Nat)) : Net where
  properties := ⟨1, 1, 1, 1, 1, 1, some true, some true, some true, some true, some true, 1, none⟩
  symbols := { symbols := .ofList symbols, codes := .ofList codes }
  arcs := [⟨0, 7, 3, 1⟩]
  intermediate := .ofList [0]
  accepting := .ofList [1]
  orientation := .normal

/-- Epsilon under number zero, and a tag that is generated from a character. -/
def plainArc : Net :=
  arcNet [(0, .epsilon), (3, .grapheme 'a'), (7, .multichar "+X")] [("a", 3), ("+X", 7)]

/-- Epsilon under another number, and a character under number zero. -/
def misplacedEpsilon : Net :=
  arcNet [(0, .grapheme 'a'), (3, .grapheme 'b'), (7, .epsilon)] [("a", 0), ("b", 3)]

theorem epsilon_plainArc :
    ofText (arcText ["0 @_EPSILON_SYMBOL_@", "3 a", "7 +X"]) .normal = .ok plainArc ∧
      (∀ id, plainArc.symbols.get? id = some .epsilon ↔ id = Symbol.epsilonId) ∧
      ∀ input ids, plainArc.symbols.split input = .ok ids → Symbol.epsilonId ∉ ids := by
  have h : ofText (arcText ["0 @_EPSILON_SYMBOL_@", "3 a", "7 +X"]) .normal = .ok plainArc :=
    toOption_eq_some.1 (by decide +kernel)
  have hs : HasSections (arcText ["0 @_EPSILON_SYMBOL_@", "3 a", "7 +X"])
      [(0, "@_EPSILON_SYMBOL_@"), (3, "a"), (7, "+X")] [.explicit 0 7 3 1 false, .explicit 1 (-1) (-1) (-1) true] :=
    ⟨"1 1 1 1 1 1 1 1 1 1 1 1", ["0 @_EPSILON_SYMBOL_@", "3 a", "7 +X"],
      .cons (by decide +kernel) (.cons (by decide +kernel) (.cons (by decide +kernel) .nil)),
      ["0 7 3 1 0", "1 -1 -1 1"], by decide +kernel, .cons (by decide +kernel) (.cons (by decide +kernel) .nil)⟩
  obtain ⟨htable, -, hkept⟩ := epsilon_iff_keepsEpsilon h hs
  have hkeeps : KeepsEpsilon [(0, "@_EPSILON_SYMBOL_@"), (3, "a"), (7, "+X")] := by decide +kernel
  exact ⟨h, htable.2 hkeeps, (hkept hkeeps).1⟩

/-- A text may give number zero to a character and epsilon another number.  Then an input is split into number zero, and
a search does not pass over the label that is shown as epsilon. -/
theorem epsilon_misplaced :
    ofText (arcText ["0 a", "3 b", "7 @_EPSILON_SYMBOL_@"]) .normal = .ok misplacedEpsilon ∧
      misplacedEpsilon.symbols.get? 0 = some (.grapheme 'a') ∧
      misplacedEpsilon.symbols.split "a" = .ok [0] ∧
      misplacedEpsilon.symbols.get? 7 = some .epsilon ∧
      Arc.labelText misplacedEpsilon.symbols 7 = Symbol.epsilonText ∧
      ((Transducer.ofNet misplacedEpsilon).generate "").toList = [] := by
  have hsplit : misplacedEpsilon.symbols.split "a" = .ok [0] := by
    have hchars : "a".toList = ['a'] := by decide +kernel
    have hlong : misplacedEpsilon.symbols.longestText = 1 := by decide +kernel
    have hmatch : misplacedEpsilon.symbols.longestMatch? ['a'] 1 = some (0, 1) := by decide +kernel
    simp [split, hchars, hlong, splitFrom, hmatch, Except.map]
  have hgenerate : ((Transducer.ofNet misplacedEpsilon).generate "").toList = [] := by
    have hinitial : (Transducer.ofNet misplacedEpsilon).initial? = some 0 := by
      rw [Transducer.initial?, ← Std.ExtTreeSet.head?_toList]
      decide +kernel
    have hempty : (Transducer.ofNet misplacedEpsilon).symbols.split "" = .ok [] := by
      simp [split, splitFrom]
    have houtputs : ((Transducer.ofNet misplacedEpsilon).generate "").outputs = [] :=
      Transducer.outputs_of_itemsWithin (n := 10) hinitial hempty (by decide +kernel)
    rw [Results.toList_eq, houtputs]
    rfl
  exact ⟨toOption_eq_some.1 (by decide +kernel), by decide +kernel, hsplit, by decide +kernel, by decide +kernel,
    hgenerate⟩

end Net

end LexicalTransducer
