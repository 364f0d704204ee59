import LexicalTransducer.Proofs.Net.Sections
import LexicalTransducer.Proofs.Search.Lockstep
import LexicalTransducer.Proofs.Transducer.RoundTrip

/-!
# The order of the alphabet

Texts with the definitions of the alphabet in another order are read as nets with the same arcs and states
(`section_unique`).  Their tables differ in the numbers of flags only, so every lookup gives the same results in the
same order, with the same error at their end (`lookups_of_perm`).
-/

namespace LexicalTransducer

/-! ### The states section -/

namespace StatesSection

variable {orientation : Orientation} {b b' : SymbolTable.Builder} {s s' : StatesSection} {lines : List StateLine}

/-- What a line adds depends on which labels are bound, not on what they are bound to. -/
private theorem adds_congr (h : ∀ id, id ∈ b'.symbols ↔ id ∈ b.symbols) : Adds orientation b' = Adds orientation b := by
  have hresolve : b'.resolve = b.resolve := by
    funext code
    simp only [SymbolTable.Builder.resolve, h]
  have harc : arc b' = arc b := by
    funext source upper lower target
    simp only [arc, hresolve]
  funext s l s'
  cases l <;> simp only [Adds, add, harc]

theorem section_unique (h : ∀ id, id ∈ b'.symbols ↔ id ∈ b.symbols) (hs : Steps (Adds orientation b) {} lines s)
    (hs' : Steps (Adds orientation b') {} lines s') : s' = s := by
  rw [adds_congr h, ← List.map_id lines] at hs'
  refine (hs.lockstep (R := (· = ·)) ?_ hs' rfl).symm
  rintro x _ y y' l - rfl hy hy'
  exact Except.ok.inj (hy.symm.trans hy')

end StatesSection

/-! ### The tables -/

namespace SymbolTable.Agree

variable {names names' : FlagNames} {t t' : SymbolTable}

private theorem split_eq (h : Agree names names' t t') (text : String) : t'.split text = t.split text := by
  have hcodes : t'.codes = t.codes.map fun _ id => id := by
    rw [h.codes]
    apply Std.ExtTreeMap.ext_getElem?
    intro text
    rw [Std.ExtTreeMap.getElem?_map]
    exact Option.map_id'.symm
  rw [split_of_codes hcodes]
  cases t.split text with
  | error e => rfl
  | ok ids => exact congrArg Except.ok (List.map_id ids)

/-- A flag has no text of its own in an output. -/
private theorem ordinary_eq (h : Agree names names' t t') (output : List Nat) :
    t'.ordinary output = t.ordinary output := by
  have hmap : t'.ordinary (output.map id) = t.ordinary output := by
    refine ordinary_map fun k _ => ?_
    have hs := h.symbols k
    simp only [id, get?]
    generalize t.symbols[k]? = s at hs
    generalize t'.symbols[k]? = s' at hs
    cases hs with
    | none => rfl
    | some hs => cases hs <;> rfl
  rwa [List.map_id] at hmap

private theorem mem_symbols_iff (h : Agree names names' t t') (id : Nat) : id ∈ t'.symbols ↔ id ∈ t.symbols := by
  have hs := h.symbols id
  rw [Std.ExtTreeMap.mem_iff_isSome_getElem?, Std.ExtTreeMap.mem_iff_isSome_getElem?]
  generalize t.symbols[id]? = s at hs
  generalize t'.symbols[id]? = s' at hs
  cases hs <;> exact Iff.rfl

end SymbolTable.Agree

namespace Transducer

variable {t : Transducer} {table : SymbolTable} {names names' : FlagNames}

/-- Lookups do not see the numbers of flags. -/
private theorem toList_lookup_agree {α : Type} (tape : Tape) {render render' : List Nat → α}
    (h : t.symbols.Agree names names' table) (hrender : ∀ v, render' v = render v) (text : String) :
    (({ t with symbols := table } : Transducer).lookup tape render' text).toList =
      (t.lookup tape render text).toList := by
  have houtputs : (({ t with symbols := table } : Transducer).lookup tape render' text).outputs =
      (t.lookup tape render text).outputs := by
    cases hs : t.symbols.split text with
    | error e =>
      rw [outputs_lookup_of_error hs, outputs_lookup_of_error (t := { t with symbols := table })
        ((h.split_eq text).trans hs)]
    | ok ids =>
      rw [outputs_lookup hs, outputs_lookup (t := { t with symbols := table }) ((h.split_eq text).trans hs)]
      exact Query.items_under (q := t.query tape ids) h t.initial?
  rw [Results.toList_eq, Results.toList_eq, houtputs, render_lookup, render_lookup, funext hrender]

/-- Texts that differ in the order of their definitions, none of which has the same character or tag as another, give
the same results to every lookup. -/
theorem lookups_of_perm {text text' : String} {orientation : Orientation} {t t' : Transducer}
    {entries entries' : List (Int × String)} {lines : List StateLine} (h : ofText text orientation = .ok t)
    (h' : ofText text' orientation = .ok t') (hs : Net.HasSections text entries lines)
    (hs' : Net.HasSections text' entries' lines) (hp : entries.Perm entries') (hdistinct : HasDistinctTexts entries)
    (limits : Limits) (input : String) :
    ((t'.withLimits limits).analyze input).toList = ((t.withLimits limits).analyze input).toList ∧
    ((t'.withLimits limits).generate input).toList = ((t.withLimits limits).generate input).toList := by
  obtain ⟨n, hn, rfl⟩ := map_eq_ok.1 h
  obtain ⟨n', hn', rfl⟩ := map_eq_ok.1 h'
  obtain ⟨ps, b, s, hdefines, hadds, rfl⟩ := (Net.sections_of_ofText hn).2 _ _ hs
  obtain ⟨ps', b', s', hdefines', hadds', rfl⟩ := (Net.sections_of_ofText hn').2 _ _ hs'
  have hagree := SymbolTable.Builder.agree_of_perm hdefines hdefines' hp hdistinct
  obtain rfl := StatesSection.section_unique hagree.mem_symbols_iff hadds hadds'
  exact ⟨toList_lookup_agree (t := (ofNet (Net.ofSections orientation ps b s')).withLimits limits) .lower hagree
      (fun v => SymbolTable.analysis_of_ordinary (hagree.ordinary_eq v)) input,
    toList_lookup_agree (t := (ofNet (Net.ofSections orientation ps b s')).withLimits limits) .upper hagree
      (fun v => SymbolTable.form_of_ordinary (hagree.ordinary_eq v)) input⟩

/-- A net in which two flags lead to the same state, and the flag behind them asks for the first one. -/
def casesText (sigma : List String) : String :=
  "\n".intercalate (["##foma-net 1.0##", "##props##", "1 1 1 1 1 1 1 1 1 1 1 1", "##sigma##"] ++ sigma ++
    ["##states##", "0 5 1 0", "0 6 1 0", "1 7 2 0", "2 4 3 3 0", "3 -1 -1 1", "##end##"])

/-- What such a text is read as, with these symbols in its table. -/
def cases (symbols : List (Nat × Symbol)) (codes : List (String × Nat)) : Transducer where
  properties := ⟨1, 1, 1, 1, 1, 1, some true, some true, some true, some true, some true, 1, none⟩
  symbols := { symbols := .ofList symbols, codes := .ofList codes, featureCount := 2 }
  graph := .ofArcs [⟨0, 5, 5, 1⟩, ⟨0, 6, 6, 1⟩, ⟨1, 7, 7, 2⟩, ⟨2, 4, 3, 3⟩] {3}
  states := (.ofList [0, 1, 2, 3] \ {3}) ∪ {3}
  orientation := .normal

def nominativeFirst : Transducer :=
  cases [(3, .grapheme 'a'), (4, .multichar "+N"), (5, .flag ⟨.positive, 0, 1, "@P.C.N@"⟩),
    (6, .flag ⟨.positive, 1, 2, "@P.N.S@"⟩), (7, .flag ⟨.requireValue, 0, 1, "@R.C.N@"⟩)] [("a", 3), ("+N", 4)]

def singularFirst : Transducer :=
  cases [(6, .flag ⟨.positive, 0, 1, "@P.N.S@"⟩), (4, .multichar "+N"),
    (7, .flag ⟨.requireValue, 1, 2, "@R.C.N@"⟩), (3, .grapheme 'a'),
    (5, .flag ⟨.positive, 1, 2, "@P.C.N@"⟩)] [("+N", 4), ("a", 3)]

private theorem ofText_nominativeFirst :
    ofText (casesText ["3 a", "4 +N", "5 @P.C.N@", "6 @P.N.S@", "7 @R.C.N@"]) .normal =
      .ok nominativeFirst :=
  toOption_eq_some.1 (by decide +kernel)

private theorem ofText_singularFirst :
    ofText (casesText ["6 @P.N.S@", "4 +N", "7 @R.C.N@", "3 a", "5 @P.C.N@"]) .normal =
      .ok singularFirst :=
  toOption_eq_some.1 (by decide +kernel)

/-- With the definitions in another order the flags take other numbers, and `a` has the same one analysis. -/
theorem lookups_singularFirst :
    ofText (casesText ["3 a", "4 +N", "5 @P.C.N@", "6 @P.N.S@", "7 @R.C.N@"]) .normal =
      .ok nominativeFirst ∧
    ofText (casesText ["6 @P.N.S@", "4 +N", "7 @R.C.N@", "3 a", "5 @P.C.N@"]) .normal =
      .ok singularFirst ∧
    nominativeFirst.symbols ≠ singularFirst.symbols ∧
    ((nominativeFirst.withLimits { maxDepth := 5 }).analyze "a").toList = [.ok ["+N"]] ∧
    ((singularFirst.withLimits { maxDepth := 5 }).analyze "a").toList = [.ok ["+N"]] := by
  have hstates : List.Forall₂ (fun l e => StateLine.ofLine l = .ok e)
      ["0 5 1 0", "0 6 1 0", "1 7 2 0", "2 4 3 3 0", "3 -1 -1 1"]
      [.explicit 0 5 5 1 false, .explicit 0 6 6 1 false, .explicit 1 7 7 2 false, .explicit 2 4 3 3 false,
        .explicit 3 (-1) (-1) (-1) true] :=
    .cons (by decide +kernel) (.cons (by decide +kernel) (.cons (by decide +kernel) (.cons (by decide +kernel)
      (.cons (by decide +kernel) .nil))))
  have ha : sigmaLine "3 a" = .ok (3, "a") := by decide +kernel
  have htag : sigmaLine "4 +N" = .ok (4, "+N") := by decide +kernel
  have hnominative : sigmaLine "5 @P.C.N@" = .ok (5, "@P.C.N@") := by decide +kernel
  have hsingular : sigmaLine "6 @P.N.S@" = .ok (6, "@P.N.S@") := by decide +kernel
  have hrequire : sigmaLine "7 @R.C.N@" = .ok (7, "@R.C.N@") := by decide +kernel
  have hs : Net.HasSections (casesText ["3 a", "4 +N", "5 @P.C.N@", "6 @P.N.S@", "7 @R.C.N@"]) _ _ :=
    ⟨"1 1 1 1 1 1 1 1 1 1 1 1", _, .cons ha (.cons htag (.cons hnominative (.cons hsingular (.cons hrequire .nil)))), _,
      by decide +kernel, hstates⟩
  have hs' : Net.HasSections (casesText ["6 @P.N.S@", "4 +N", "7 @R.C.N@", "3 a", "5 @P.C.N@"]) _ _ :=
    ⟨"1 1 1 1 1 1 1 1 1 1 1 1", _, .cons hsingular (.cons htag (.cons hrequire (.cons ha (.cons hnominative .nil)))), _,
      by decide +kernel, hstates⟩
  have hdistinct : HasDistinctTexts [(3, "a"), (4, "+N"), (5, "@P.C.N@"), (6, "@P.N.S@"),
      (7, "@R.C.N@")] :=
    (by decide +kernel : List.Pairwise (fun e e' : Int × String => e.2 ≠ e'.2) _).imp fun hne heq => absurd heq hne
  have hlookups := (lookups_of_perm ofText_nominativeFirst ofText_singularFirst hs hs' (by decide +kernel) hdistinct
    { maxDepth := 5 } "a").1
  have hinitial : nominativeFirst.initial? = some 0 := by
    rw [initial?, ← Std.ExtTreeSet.head?_toList]
    decide +kernel
  have hsplit : nominativeFirst.symbols.split "a" = .ok [3] := by
    have hchars : "a".toList = ['a'] := by decide +kernel
    have hlong : nominativeFirst.symbols.longestText = 2 := by decide +kernel
    have hmatch : nominativeFirst.symbols.longestMatch? ['a'] 1 = some (3, 1) := by decide +kernel
    simp [SymbolTable.split, hchars, hlong, SymbolTable.splitFrom, hmatch, Except.map]
  have hfirst : ((nominativeFirst.withLimits { maxDepth := 5 }).analyze "a").toList = [.ok ["+N"]] := by
    have houtputs : ((nominativeFirst.withLimits { maxDepth := 5 }).analyze "a").outputs = [.ok [4]] :=
      outputs_of_itemsWithin (n := 30) hinitial hsplit (by decide +kernel)
    rw [Results.toList_eq, houtputs]
    decide +kernel
  exact ⟨ofText_nominativeFirst, ofText_singularFirst, by decide +kernel, hfirst, hlookups.trans hfirst⟩

end Transducer

end LexicalTransducer
