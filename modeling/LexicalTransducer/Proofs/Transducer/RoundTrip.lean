import LexicalTransducer.Proofs.Net.Reading
import LexicalTransducer.Proofs.Search.Mirror
import LexicalTransducer.Proofs.Symbol.Spelling
import LexicalTransducer.Transducer.Basic

/-!
# There and back

The table of a net that has been read is faithful to its texts (`isFaithful_of_ofText`), so the texts of a lookup and
its label numbers say the same.  A form that an analysis has been found for is among the forms of this analysis, and
the other way round (`analyze_generate`), unless the way back ends with an error or its text is split otherwise.
-/

namespace LexicalTransducer

namespace Net

namespace Progress

/-- The table under construction, if there is one, is faithful to its texts. -/
def IsFaithful : Progress → Prop
  | start | header | props _ => True
  | sigma _ b | states _ b _ | closed _ b _ => b.finish.IsFaithful

private theorem isFaithful_of_reads {orientation : Orientation} (p : Progress) (l : String) (p' : Progress)
    (hp : p.IsFaithful) (h : Reads orientation p l p') : p'.IsFaithful := by
  cases h with
  | blank | arcs | states | closing => exact hp
  | net | props | property => trivial
  | sigma => exact SymbolTable.Builder.isFaithful_start
  | symbol _ _ _ hd => exact SymbolTable.Builder.isFaithful_define hp hd

end Progress

theorem isFaithful_of_ofText {text : String} {orientation : Orientation} {net : Net}
    (h : ofText text orientation = .ok net) : net.symbols.IsFaithful := by
  obtain ⟨ps, b, s, hs, rfl⟩ := ofText_eq_ok.1 h
  exact hs.invariant (I := Progress.IsFaithful) Progress.isFaithful_of_reads trivial

end Net

namespace Results

variable {α : Type}

/-- The results as label numbers, before they are shown as anything. -/
def outputs (r : Results α) : List Item :=
  r.query.items r.workspace

theorem toList_eq (r : Results α) : r.toList = r.outputs.map (·.map r.render) := rfl

private theorem ok_mem_toList {r : Results α} {v : List Nat} (h : .ok v ∈ r.outputs) : .ok (r.render v) ∈ r.toList :=
  List.mem_map_of_mem (f := (·.map r.render)) h

private theorem error_mem_toList {r : Results α} {e : LookupError} (h : .error e ∈ r.outputs) : .error e ∈ r.toList :=
  List.mem_map_of_mem (f := (·.map r.render)) h

end Results

namespace Transducer

variable {t : Transducer}

theorem isFaithful_of_ofText {text : String} {orientation : Orientation}
    (h : ofText text orientation = .ok t) : t.symbols.IsFaithful := by
  obtain ⟨net, hn, rfl⟩ := map_eq_ok.1 h
  exact Net.isFaithful_of_ofText hn

/-- The search for these symbols on one tape. -/
def query (t : Transducer) (tape : Tape) (ids : List Nat) : Query where
  graph := t.graph
  symbols := t.symbols
  input := ids.toArray
  tape
  limits := t.limits

section
variable {α : Type} {tape : Tape} {render : List Nat → α} {text : String}

theorem outputs_lookup {ids : List Nat} (h : t.symbols.split text = .ok ids) :
    (t.lookup tape render text).outputs = (t.query tape ids).items ((t.query tape ids).start t.initial?) := by
  unfold lookup
  rw [h]
  rfl

/-- A text outside the alphabet begins nowhere. -/
theorem outputs_lookup_of_error {e : OutOfAlphabet} (h : t.symbols.split text = .error e) :
    (t.lookup tape render text).outputs = [] := by
  unfold lookup
  rw [h]
  exact Query.items_of_frames_nil rfl

/-- The results of a lookup that takes at most `n` steps. -/
theorem outputs_of_itemsWithin {ids : List Nat} {n : Nat} {items : List Item} {initial : Option Nat}
    (hs : t.initial? = initial) (h : t.symbols.split text = .ok ids)
    (hi : (t.query tape ids).itemsWithin n ((t.query tape ids).start initial) = some items) :
    (t.lookup tape render text).outputs = items := by
  rw [outputs_lookup h, hs, Query.items_of_itemsWithin _ hi]

theorem render_lookup (t : Transducer) (tape : Tape) (render : List Nat → α) (text : String) :
    (t.lookup tape render text).render = render := by
  unfold lookup
  split <;> rfl

/-- A text with results is a text over the alphabet. -/
private theorem exists_split_of_mem {v : List Nat} (h : .ok v ∈ (t.lookup tape render text).outputs) :
    ∃ ids, t.symbols.split text = .ok ids := by
  cases hs : t.symbols.split text with
  | ok ids => exact ⟨ids, rfl⟩
  | error e =>
    rw [outputs_lookup_of_error hs] at h
    cases h

/-- The way back from an output, where its text is split into the same output again. -/
private theorem mem_outputs_opposite {β : Type} (hf : t.symbols.IsFaithful) {v : List Nat}
    (hv : .ok v ∈ (t.lookup tape render text).outputs) {render' : List Nat → β} {back : String}
    (hback : t.symbols.split back = .ok v)
    (hnone : ∀ e, .error e ∉ (t.lookup tape.opposite render' back).outputs) :
    ∃ ids, .ok ids ∈ (t.lookup tape.opposite render' back).outputs ∧ t.symbols.form ids = text := by
  obtain ⟨ids, hids⟩ := exists_split_of_mem hv
  have hin : (t.query tape ids).IsUnflagged := fun id hid => SymbolTable.flag?_of_split hf hids hid
  rw [outputs_lookup hids] at hv
  rw [outputs_lookup hback] at hnone ⊢
  exact ⟨ids, Query.mem_items_opposite hin hv hnone, SymbolTable.form_of_split hf hids⟩

end

/-- A form is generated from each of its analyses, and an analysis is found for each of its forms, if the text of
the way there is split into the same symbols again and the way back ends without an error. -/
theorem analyze_generate {text : String} {orientation : Orientation}
    (h : ofText text orientation = .ok t) (limits : Limits) :
    (∀ surface v, .ok v ∈ ((t.withLimits limits).analyze surface).outputs →
      t.symbols.split (String.join (t.symbols.analysis v)) = .ok v →
      (∀ e, .error e ∉ ((t.withLimits limits).generate (String.join (t.symbols.analysis v))).toList) →
      .ok surface ∈ ((t.withLimits limits).generate (String.join (t.symbols.analysis v))).toList) ∧
    (∀ analysis v, .ok v ∈ ((t.withLimits limits).generate analysis).outputs →
      t.symbols.split (t.symbols.form v) = .ok v →
      (∀ e, .error e ∉ ((t.withLimits limits).analyze (t.symbols.form v)).toList) →
      ∃ parts, .ok parts ∈ ((t.withLimits limits).analyze (t.symbols.form v)).toList ∧
        String.join parts = analysis) := by
  have hf : t.symbols.IsFaithful := isFaithful_of_ofText h
  constructor
  · intro surface v hv hback hnone
    obtain ⟨ids, hids, hform⟩ := mem_outputs_opposite (t := t.withLimits limits) hf hv hback
      fun e he => hnone e (Results.error_mem_toList he)
    have hmem := Results.ok_mem_toList hids
    rw [render_lookup] at hmem
    exact hform ▸ hmem
  · intro analysis v hv hback hnone
    obtain ⟨ids, hids, hform⟩ := mem_outputs_opposite (t := t.withLimits limits) hf hv hback
      fun e he => hnone e (Results.error_mem_toList he)
    have hmem := Results.ok_mem_toList hids
    rw [render_lookup] at hmem
    exact ⟨_, hmem, (SymbolTable.join_analysis _ _).trans hform⟩

/-- A net with a flag, a character and a tag that the form leaves out. -/
def taggedText : String :=
  "\n".intercalate ["##foma-net 1.0##", "##props##", "1 1 1 1 1 1 1 1 1 1 1 1", "##sigma##", "3 a", "4 +N", "5 @U.N.S@",
    "##states##", "0 5 1 0", "1 3 2 0", "2 4 0 3 0", "3 -1 -1 1", "##end##"]

/-- What `taggedText` is read as. -/
def tagged : Transducer where
  properties := ⟨1, 1, 1, 1, 1, 1, some true, some true, some true, some true, some true, 1, none⟩
  symbols :=
    { symbols := .ofList [(3, Symbol.grapheme 'a'), (4, .multichar "+N"), (5, .flag ⟨.unify, 0, 1, "@U.N.S@"⟩)]
      codes := .ofList [("a", 3), ("+N", 4)]
      featureCount := 1 }
  graph := .ofArcs [⟨0, 5, 5, 1⟩, ⟨1, 3, 3, 2⟩, ⟨2, 4, 0, 3⟩] {3}
  states := (.ofList [0, 1, 2, 3] \ {3}) ∪ {3}
  orientation := .normal

theorem ofText_tagged : ofText taggedText .normal = .ok tagged :=
  toOption_eq_some.1 (by decide +kernel)

theorem split_tagged : tagged.symbols.split "a" = .ok [3] ∧ tagged.symbols.split "a+N" = .ok [3, 4] := by
  have hlong : tagged.symbols.longestText = 2 := by decide +kernel
  have ha : tagged.symbols.longestMatch? ['a'] 1 = some (3, 1) := by decide +kernel
  have hlonger : tagged.symbols.longestMatch? ['a', '+', 'N'] 2 = some (3, 1) := by decide +kernel
  have htag : tagged.symbols.longestMatch? ['+', 'N'] 2 = some (4, 2) := by decide +kernel
  constructor
  · have hchars : "a".toList = ['a'] := by decide +kernel
    simp [SymbolTable.split, hchars, hlong, SymbolTable.splitFrom, ha, Except.map]
  · have hchars : "a+N".toList = ['a', '+', 'N'] := by decide +kernel
    simp [SymbolTable.split, hchars, hlong, SymbolTable.splitFrom, hlonger, htag, Except.map]

/-- The only analysis of `a` is `a+N`, and `a` is generated from it. -/
theorem generate_tagged : ofText taggedText .normal = .ok tagged ∧
    .ok [3, 4] ∈ ((tagged.withLimits { maxDepth := 5 }).analyze "a").outputs ∧
    .ok "a" ∈ ((tagged.withLimits { maxDepth := 5 }).generate "a+N").toList := by
  have hinitial : tagged.initial? = some 0 := by
    rw [initial?, ← Std.ExtTreeSet.head?_toList]
    decide +kernel
  have hthere : ((tagged.withLimits { maxDepth := 5 }).analyze "a").outputs = [.ok [3, 4]] :=
    outputs_of_itemsWithin (n := 30) hinitial split_tagged.1 (by decide +kernel)
  have hback : ((tagged.withLimits { maxDepth := 5 }).generate "a+N").outputs = [.ok [3]] :=
    outputs_of_itemsWithin (n := 30) hinitial split_tagged.2 (by decide +kernel)
  have htext : String.join (tagged.symbols.analysis [3, 4]) = "a+N" := by decide +kernel
  have hmem : .ok [3, 4] ∈ ((tagged.withLimits { maxDepth := 5 }).analyze "a").outputs := by
    rw [hthere]
    exact List.mem_singleton_self _
  have hgenerate := (analyze_generate ofText_tagged { maxDepth := 5 }).1 "a" [3, 4] hmem
  rw [htext] at hgenerate
  refine ⟨ofText_tagged, hmem, hgenerate split_tagged.2 ?_⟩
  intro e he
  rw [Results.toList_eq, hback] at he
  simp [Except.map] at he

end Transducer

end LexicalTransducer
