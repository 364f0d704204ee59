import LexicalTransducer.Proofs.Symbol.Alphabet

/-!
# Tables under other numbers

Where the texts of a table have other numbers, an input is split at the same places, into the other numbers
(`split_of_codes`), and an output of the other numbers is shown as the same symbols (`ordinary_map`).  Definitions
with other codes and the same texts make such a table, and its flags take the same numbers for their names
(`renumbered_of_steps`).
-/

namespace LexicalTransducer

/-- A field that holds a number of something that is renumbered.  Negative fields are marks. -/
def renumberField (f : Nat → Nat) : Int → Int
  | .ofNat n => f n
  | .negSucc n => .negSucc n

@[simp] theorem renumberField_natCast (f : Nat → Nat) (n : Nat) : renumberField f n = f n := rfl

theorem renumberField_nonneg {f : Nat → Nat} {n : Int} : 0 ≤ renumberField f n ↔ 0 ≤ n := by
  cases n with
  | ofNat n => exact ⟨fun _ => Int.natCast_nonneg n, fun _ => Int.natCast_nonneg _⟩
  | negSucc n => exact Iff.rfl

/-- The numbers that definitions bind. -/
def codesOf (entries : List (Int × String)) : Set Nat :=
  {id | (id : Int) ∈ entries.map (·.1)}

namespace SymbolTable

/-! ### What a table is used for -/

section
variable {t t' : SymbolTable} {code : Nat → Nat}

private theorem code?_of_codes (h : t'.codes = t.codes.map fun _ id => code id) (text : String) :
    t'.code? text = (t.code? text).map code := by
  rw [code?, h, Std.ExtTreeMap.getElem?_map]
  rfl

private theorem longestText_of_codes (h : t'.codes = t.codes.map fun _ id => code id) :
    t'.longestText = t.longestText := by
  have hlengths : ∀ t : SymbolTable, (t.textEntries.map fun e => e.1.length) = t.codes.keys.map String.length := by
    intro t
    rw [← Std.ExtTreeMap.map_fst_toList_eq_keys, List.map_map]
    rfl
  rw [longestText, hlengths, h, Std.ExtTreeMap.keys_map, ← hlengths, longestText]

private theorem longestMatch?_of_codes (h : t'.codes = t.codes.map fun _ id => code id) (cs : List Char) (n : Nat) :
    t'.longestMatch? cs n = (t.longestMatch? cs n).map fun found => (code found.1, found.2) := by
  induction n with
  | zero => rfl
  | succ n ih =>
    rw [longestMatch?, longestMatch?, code?_of_codes h]
    cases t.code? (String.ofList (cs.take (n + 1))) with
    | none => exact ih
    | some id => rfl

private theorem splitFrom_of_codes (h : t'.codes = t.codes.map fun _ id => code id) (n position : Nat)
    (cs : List Char) : t'.splitFrom n position cs = (t.splitFrom n position cs).map (List.map code) := by
  induction position, cs using splitFrom.induct t n with
  | case1 position => rw [splitFrom, splitFrom, Except.map, List.map_nil]
  | case2 position c cs hm =>
    rw [splitFrom, splitFrom, longestMatch?_of_codes h, hm]
    rfl
  | case3 position c cs id k hm used ih =>
    rw [splitFrom, splitFrom, longestMatch?_of_codes h, hm]
    show (t'.splitFrom n (position + used) (cs.drop (k - 1))).map (code id :: ·) =
      ((t.splitFrom n (position + used) (cs.drop (k - 1))).map (id :: ·)).map (List.map code)
    rw [ih]
    cases t.splitFrom n (position + used) (cs.drop (k - 1)) <;> rfl

/-- An input is split at the same places, whatever the numbers are. -/
theorem split_of_codes (h : t'.codes = t.codes.map fun _ id => code id) (text : String) :
    t'.split text = (t.split text).map (List.map code) := by
  rw [split, split, longestText_of_codes h, splitFrom_of_codes h]
  cases t.splitFrom t.longestText 0 text.toList <;> rfl

/-- An output is shown as the same symbols, if its labels are. -/
theorem ordinary_map {output : List Nat}
    (h : ∀ id ∈ output, (t'.get? (code id)).filter (·.isOrdinary) = (t.get? id).filter (·.isOrdinary)) :
    t'.ordinary (output.map code) = t.ordinary output := by
  rw [ordinary, ordinary, List.filter_filterMap, List.filter_filterMap, List.filterMap_map]
  exact List.filterMap_congr h

theorem analysis_of_ordinary {output output' : List Nat} (h : t'.ordinary output' = t.ordinary output) :
    t'.analysis output' = t.analysis output := by
  rw [analysis_eq, analysis_eq, h]

theorem form_of_ordinary {output output' : List Nat} (h : t'.ordinary output' = t.ordinary output) :
    t'.form output' = t.form output := by
  rw [form, form, h]

end

/-! ### Definitions with other codes -/

namespace Builder

/-- A definition with another code for its text. -/
def renumberEntry (code : Nat → Nat) (e : Int × String) : Int × String :=
  (renumberField code e.1, e.2)

/-- The table `b'` has the symbols and texts of `b`, under other numbers where these are `known`. -/
structure Renumbered (known : Set Nat) (code : Nat → Nat) (b b' : Builder) : Prop where
  names : b'.names = b.names
  codes : b'.codes = b.codes.map fun _ id => code id
  symbols : ∀ id ∈ known, b'.symbols[code id]? = b.symbols[id]?

variable {b b' c c' : Builder} {known : Set Nat} {code : Nat → Nat} {e : Int × String}
  {entries : List (Int × String)}

theorem getElem?_symbols_bind (b : Builder) (id k : Nat) (s : Symbol) :
    (b.bind id s).symbols[k]? = if id = k then some s else b.symbols[k]? := by
  simp only [bind, Std.ExtTreeMap.getElem?_insert, Nat.compare_eq_eq]

/-- A text that has a number keeps it, and only the text of an ordinary symbol takes one. -/
theorem getElem?_codes_bind (b : Builder) (id : Nat) (s : Symbol) (text : String) :
    (b.bind id s).codes[text]? =
      if s.isOrdinary = true ∧ s.text = text ∧ b.codes[text]? = none then some id else b.codes[text]? := by
  simp only [bind]
  by_cases hs : s.isOrdinary = true
  · simp only [hs, ↓reduceIte, true_and, Std.ExtTreeMap.getElem?_insertIfNew, Std.LawfulEqCmp.compare_eq_iff_eq]
    refine if_congr (and_congr_right fun ht => ?_) rfl rfl
    rw [ht, Std.ExtTreeMap.mem_iff_isSome_getElem?, Option.not_isSome_iff_eq_none]
  · simp only [hs, Bool.false_eq_true, ↓reduceIte, false_and]

private theorem renumbered_start : Renumbered known code {} {} where
  names := rfl
  codes := by
    apply Std.ExtTreeMap.ext_getElem?
    intro text
    simp
  symbols id _ := by simp

private theorem Renumbered.bind (h : Renumbered known code b b') (hinj : Set.InjOn code known) {id : Nat}
    (hid : id ∈ known) (s : Symbol) (names : FlagNames) :
    Renumbered known code ({ b with names }.bind id s) ({ b' with names }.bind (code id) s) where
  names := rfl
  codes := by
    apply Std.ExtTreeMap.ext_getElem?
    intro text
    simp only [Std.ExtTreeMap.getElem?_map, getElem?_codes_bind, h.codes, Option.map_eq_none_iff]
    split <;> rfl
  symbols k hk := by
    simp only [getElem?_symbols_bind, hinj.eq_iff hid hk, h.symbols k hk]

private theorem Renumbered.defines (h : Renumbered known code b b') (hinj : Set.InjOn code known)
    (he : ∀ id : Nat, e.1 = id → id ∈ known) (hd : b.Defines e c) (hd' : b'.Defines (renumberEntry code e) c') :
    Renumbered known code c c' := by
  obtain ⟨id, s, names, hw, -, hs, rfl⟩ := define_eq_ok.1 hd
  obtain ⟨id', s', names', hw', -, hs', rfl⟩ := define_eq_ok.1 hd'
  have hcode := (word32?_eq_some.1 hw).1
  have hcode' := (word32?_eq_some.1 hw').1
  have hid' : code id = id' := by
    rw [renumberEntry, hcode, renumberField_natCast] at hcode'
    exact Int.natCast_inj.1 hcode'
  -- both texts are read behind the same names
  rw [h.names] at hs'
  cases hs.symm.trans hs'
  subst hid'
  exact h.bind hinj (he id hcode) s names

/-- Definitions with other codes make a table with other numbers. -/
theorem renumbered_of_steps (hinj : Set.InjOn code known) (hknown : codesOf entries ⊆ known)
    (h : Steps Defines {} entries b) (h' : Steps Defines {} (entries.map (renumberEntry code)) b') :
    Renumbered known code b b' := by
  refine h.lockstep (R := Renumbered known code) (fun x x' y y' e he hx hd hd' => ?_) h' renumbered_start
  refine hx.defines hinj (fun id hid => hknown ?_) hd hd'
  exact List.mem_map.2 ⟨e, he, hid⟩

end Builder

end SymbolTable

end LexicalTransducer
