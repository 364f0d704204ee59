import LexicalTransducer.Proofs.Symbol.Bindings
import LexicalTransducer.Proofs.Transducer.RoundTrip

/-!
# The parts of an analysis

An output is analysed by its visible labels alone, those of characters and tags.  Each tag is a part, and so is each
longest run of characters (`IsPartition`).  There is one way to cut an output into such parts, and the analysis is their
texts, none of them empty (`analysis_of_parts`).  So the analyses of many inputs, written out, are the forms of their
outputs.
-/

namespace LexicalTransducer

/-! ### Cutting symbols into parts -/

/-- A part of an analysis. -/
inductive Part
  /-- Characters, at least one. -/
  | run (first : Char) (others : List Char)
  | tag (text : String)
deriving DecidableEq, Repr

namespace Part

def symbols : Part → List Symbol
  | run c cs => .grapheme c :: cs.map .grapheme
  | tag w => [.multichar w]

def text : Part → String
  | run c cs => String.ofList (c :: cs)
  | tag w => w

def isRun : Part → Bool
  | run _ _ => true
  | tag _ => false

variable {p q : Part}

private theorem writtenForm_symbols (p : Part) : writtenForm p.symbols = p.text := by
  cases p with
  | run c cs => exact SymbolTable.writtenForm_map_grapheme (c :: cs)
  | tag w => simp [symbols, text, writtenForm, Symbol.surface]

private theorem symbols_ne_nil (p : Part) : p.symbols ≠ [] := by
  cases p <;> exact List.cons_ne_nil _ _

private theorem symbols_injective : Function.Injective symbols := by
  intro p q h
  cases p with
  | tag w =>
    cases q with
    | tag w' => simpa [symbols] using h
    | run c cs => simp [symbols] at h
  | run c cs =>
    cases q with
    | tag w => simp [symbols] at h
    | run c' cs' =>
      simp only [symbols, List.cons.injEq, Symbol.grapheme.injEq] at h
      obtain ⟨rfl, hcs⟩ := h
      rw [List.map_injective_iff.2 (fun _ _ => Symbol.grapheme.inj) hcs]

private theorem isChain_symbols (p : Part) : p.symbols.IsChain fun a b => (a.isGrapheme && b.isGrapheme) = true := by
  cases p with
  | tag w => exact List.isChain_singleton _
  | run c cs => exact SymbolTable.isChain_map_grapheme (c :: cs)

/-- At a tag there is a cut. -/
private theorem cut_of_not_isRun (h : ¬ (p.isRun = true ∧ q.isRun = true)) : ∃ ha hb,
    ((p.symbols.getLast ha).isGrapheme && (q.symbols.head hb).isGrapheme) = false := by
  refine ⟨p.symbols_ne_nil, q.symbols_ne_nil, ?_⟩
  cases p with
  | tag w => rfl
  | run c cs =>
    cases q with
    | tag w => exact Bool.and_false _
    | run c' cs' => exact absurd ⟨rfl, rfl⟩ h

end Part

/-- These parts are the tags among the symbols and the longest runs of characters between them, in their order. -/
structure IsPartition (symbols : List Symbol) (parts : List Part) : Prop where
  flatMap_symbols : parts.flatMap Part.symbols = symbols
  longest : parts.IsChain fun p q => ¬ (p.isRun = true ∧ q.isRun = true)

variable {symbols : List Symbol} {parts parts' : List Part} {c : Char}

/-- One more character joins the run in front of it, if there is one. -/
private theorem IsPartition.exists_cons_grapheme (h : IsPartition symbols parts) :
    ∃ parts', IsPartition (.grapheme c :: symbols) parts' := by
  obtain ⟨rfl, hlongest⟩ := h
  cases parts with
  | nil => exact ⟨[.run c []], rfl, List.isChain_singleton _⟩
  | cons p parts =>
    cases p with
    | tag w => exact ⟨.run c [] :: .tag w :: parts, rfl, .cons_cons (by simp [Part.isRun]) hlongest⟩
    | run c' cs =>
      rw [List.isChain_cons] at hlongest
      exact ⟨.run c (c' :: cs) :: parts, rfl, List.isChain_cons.2 hlongest⟩

private theorem IsPartition.cons_multichar {w : String} (h : IsPartition symbols parts) :
    IsPartition (.multichar w :: symbols) (.tag w :: parts) := by
  obtain ⟨rfl, hlongest⟩ := h
  exact ⟨rfl, List.isChain_cons.2 ⟨fun _ _ => by simp [Part.isRun], hlongest⟩⟩

private theorem exists_isPartition (h : ∀ s ∈ symbols, s.isOrdinary = true) : ∃ parts, IsPartition symbols parts := by
  induction symbols with
  | nil => exact ⟨[], rfl, List.isChain_nil⟩
  | cons s symbols ih =>
    obtain ⟨hs, hsymbols⟩ := List.forall_mem_cons.1 h
    obtain ⟨parts, hparts⟩ := ih hsymbols
    cases s with
    | grapheme c => exact hparts.exists_cons_grapheme
    | multichar w => exact ⟨_, hparts.cons_multichar⟩
    | epsilon | unknown | identity | flag => cases hs

private theorem IsPartition.cutSymbols_eq (h : IsPartition symbols parts) :
    SymbolTable.cutSymbols symbols = parts.map Part.symbols := by
  obtain ⟨rfl, hlongest⟩ := h
  rw [List.flatMap_def]
  refine List.splitBy_flatten ?_ ?_ ?_
  · simpa using fun p _ => p.symbols_ne_nil
  · exact List.forall_mem_map.2 fun p _ => p.isChain_symbols
  · rw [List.isChain_map]
    exact hlongest.imp fun _ _ => Part.cut_of_not_isRun

/-- There is one way to cut symbols into parts. -/
private theorem IsPartition.unique (h : IsPartition symbols parts) (h' : IsPartition symbols parts') : parts = parts' :=
  List.map_injective_iff.2 Part.symbols_injective (h.cutSymbols_eq.symm.trans h'.cutSymbols_eq)

/-! ### Outputs -/

namespace SymbolTable

/-- The character or tag that the table binds the number to. -/
def visible? (t : SymbolTable) (id : Nat) : Option Symbol :=
  match t.symbols[id]? with
  | some (.grapheme c) => some (.grapheme c)
  | some (.multichar w) => some (.multichar w)
  | _ => none

variable {t : SymbolTable} {id : Nat} {s : Symbol} {output : List Nat}

private theorem visible?_eq_some : t.visible? id = some s ↔ t.symbols[id]? = some s ∧ s.isOrdinary = true := by
  unfold visible?
  constructor
  · intro h
    split at h
    · cases h
      exact ⟨‹_›, rfl⟩
    · cases h
      exact ⟨‹_›, rfl⟩
    · cases h
  · rintro ⟨hs, hordinary⟩
    rw [hs]
    cases s with
    | grapheme | multichar => rfl
    | epsilon | unknown | identity | flag => cases hordinary

private theorem visible?_eq (t : SymbolTable) (id : Nat) : t.visible? id = (t.get? id).filter (·.isOrdinary) := by
  unfold visible? get?
  cases t.symbols[id]? with
  | none =>
    show none = (if id = Symbol.epsilonId then some Symbol.epsilon else none).filter (·.isOrdinary)
    split <;> rfl
  | some s => cases s <;> rfl

private theorem ordinary_eq (t : SymbolTable) (output : List Nat) :
    t.ordinary output = output.filterMap t.visible? := by
  rw [ordinary, List.filter_filterMap]
  exact List.filterMap_congr fun id _ => (t.visible?_eq id).symm

/-- What is visible of an output can be cut into parts. -/
private theorem exists_isPartition_filterMap (t : SymbolTable) (output : List Nat) :
    ∃ parts, IsPartition (output.filterMap t.visible?) parts := by
  refine exists_isPartition fun s hs => ?_
  obtain ⟨id, -, hid⟩ := List.mem_filterMap.1 hs
  exact (visible?_eq_some.1 hid).2

private theorem analysis_of_isPartition (h : IsPartition (output.filterMap t.visible?) parts) :
    t.analysis output = parts.map Part.text := by
  rw [analysis_eq, ordinary_eq, h.cutSymbols_eq, List.map_map]
  exact List.map_congr_left fun p _ => p.writtenForm_symbols

/-- A table that has been built binds no number to an empty tag. -/
private theorem ne_empty_of_tableOf {calls : List (Int × String)} {w : String}
    (h : (tableOf calls).symbols[id]? = some (.multichar w)) : w ≠ "" := by
  obtain ⟨n, text, -, b', names, -, hof⟩ := ((boundBy_tableOf calls).symbol_iff id _).1 h
  have hlength := Symbol.two_le_length_of_isMultichar hof rfl
  rintro rfl
  cases hlength

private theorem text_ne_empty {calls : List (Int × String)} {p : Part}
    (h : IsPartition (output.filterMap (tableOf calls).visible?) parts) (hp : p ∈ parts) : p.text ≠ "" := by
  cases p with
  | run c cs =>
    rw [Part.text, ne_eq, ← String.toList_inj]
    simp
  | tag w =>
    have hmem : Symbol.multichar w ∈ output.filterMap (tableOf calls).visible? := by
      rw [← h.flatMap_symbols, List.mem_flatMap]
      exact ⟨_, hp, List.mem_singleton_self _⟩
    obtain ⟨id, -, hid⟩ := List.mem_filterMap.1 hmem
    exact ne_empty_of_tableOf (visible?_eq_some.1 hid).1

end SymbolTable

/-! ### Many inputs -/

private theorem Results.values_eq {α : Type} (r : Results α) : r.values = r.outputs.mapM (·.map r.render) := by
  rw [values, toList_eq, List.mapM_map]
  rfl

namespace Transducer

/-- The analyses of many inputs are the forms of their outputs. -/
private theorem lookupAll_analyze (t : Transducer) (inputs : List String) : t.lookupAll .analyze inputs =
    inputs.mapM fun input => (t.analyze input).outputs.mapM (·.map t.symbols.form) := by
  have hvalues : ∀ input, (t.analyze input).values.map (·.map String.join) =
      (t.analyze input).outputs.mapM (·.map t.symbols.form) := by
    intro input
    rw [Results.values_eq, map_mapM, analyze, render_lookup]
    refine congrArg (List.mapM · _) (funext fun item => ?_)
    cases item with
    | error e => rfl
    | ok v => exact congrArg Except.ok (SymbolTable.join_analysis _ _)
  rw [lookupAll, analyzeAll, map_mapM]
  exact congrArg (List.mapM · _) (funext hvalues)

end Transducer

namespace SymbolTable

/-- An output is cut into parts in one way, and the analysis is their texts: together they are the form, and none of
them is empty.  The analyses of many inputs, as texts, are the forms of the outputs. -/
theorem analysis_of_parts :
    (∀ (calls : List (Int × String)) (output : List Nat),
      (∃! parts, IsPartition (output.filterMap (tableOf calls).visible?) parts) ∧
      (∀ parts, IsPartition (output.filterMap (tableOf calls).visible?) parts →
        (tableOf calls).analysis output = parts.map Part.text) ∧
      String.join ((tableOf calls).analysis output) = (tableOf calls).form output ∧
      ∀ text ∈ (tableOf calls).analysis output, text ≠ "") ∧
    ∀ (t : Transducer) (inputs : List String), t.lookupAll .analyze inputs =
      inputs.mapM fun input => (t.analyze input).outputs.mapM (·.map t.symbols.form) := by
  refine ⟨fun calls output => ?_, Transducer.lookupAll_analyze⟩
  obtain ⟨parts, hparts⟩ := (tableOf calls).exists_isPartition_filterMap output
  refine ⟨⟨parts, hparts, fun _ h => h.unique hparts⟩, fun _ => analysis_of_isPartition, join_analysis _ _, ?_⟩
  intro text htext
  rw [analysis_of_isPartition hparts, List.mem_map] at htext
  obtain ⟨p, hp, rfl⟩ := htext
  exact text_ne_empty hparts hp

/-- Epsilon, a flag and an unbound number in a run of characters, and two tags with a flag between them. -/
theorem analysis_of_parts_eat :
    (tableOf [(3, "e"), (4, "a"), (5, "t"), (6, "+V"), (7, "+3P"), (8, "@C.x@")]).analysis
      [3, 4, 0, 8, 99, 5, 6, 8, 7, 3] = ["eat", "+V", "+3P", "e"] := by
  refine (analysis_of_parts.1 _ _).2.1 [.run 'e' ['a', 't'], .tag "+V", .tag "+3P", .run 'e' []] ⟨?_, ?_⟩
  · decide +kernel
  · decide

end SymbolTable

end LexicalTransducer
