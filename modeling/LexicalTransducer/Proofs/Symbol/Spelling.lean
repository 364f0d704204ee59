import LexicalTransducer.Proofs.Outcome
import LexicalTransducer.Symbol.Segmentation
import Mathlib.Data.List.SplitBy

/-!
# Spelling

In a table that has been built one definition at a time, a text with a number is the text of the ordinary symbol
with this number (`IsFaithful`).  So what an input is split into spells the input (`form_of_split`) and holds no
flag (`flag?_of_split`), and an analysis says the same as the form, in parts (`join_analysis`).
-/

namespace LexicalTransducer

private theorem Symbol.surface_eq_text {s : Symbol} (h : s.isOrdinary = true) : s.surface = s.text := by
  cases s with
  | grapheme c => rfl
  | multichar t => rfl
  | epsilon | unknown | identity | flag f => cases h

namespace SymbolTable

theorem get?_of_some {t : SymbolTable} {id : Nat} {s : Symbol} (h : t.symbols[id]? = some s) : t.get? id = some s := by
  rw [get?, h]

/-- Every text with a number is the text of the ordinary symbol with this number. -/
def IsFaithful (t : SymbolTable) : Prop :=
  ∀ text id, t.code? text = some id → ∃ s, t.symbols[id]? = some s ∧ s.isOrdinary = true ∧ s.text = text

/-! ### Building a table -/

namespace Builder

variable {b b' : Builder}

theorem isFaithful_start : (finish {}).IsFaithful := by
  intro text id h
  simp [code?, finish] at h

private theorem isFaithful_bind (h : b.finish.IsFaithful) {id : Nat} (hid : id ∉ b.symbols) (s : Symbol) :
    (b.bind id s).finish.IsFaithful := by
  have hget : ∀ k, (b.bind id s).finish.symbols[k]? = if id = k then some s else b.symbols[k]? := by
    intro k
    show (b.symbols.insert id s)[k]? = _
    rw [Std.ExtTreeMap.getElem?_insert]
    simp only [Nat.compare_eq_eq]
  -- a number that is bound already is not the new one
  have hold : ∀ text k, b.codes[text]? = some k → ∃ s' : Symbol,
      (b.bind id s).finish.symbols[k]? = some s' ∧ s'.isOrdinary = true ∧ s'.text = text := by
    intro text k hk
    obtain ⟨s', hs', hordinary, htext⟩ := h text k hk
    have hne : id ≠ k := by
      rintro rfl
      exact hid (Std.ExtTreeMap.mem_iff_isSome_getElem?.2 (Option.isSome_of_eq_some hs'))
    exact ⟨s', by rw [hget, if_neg hne]; exact hs', hordinary, htext⟩
  intro text k hk
  replace hk : (if s.isOrdinary then b.codes.insertIfNew s.text id else b.codes)[text]? = some k := hk
  by_cases hs : s.isOrdinary = true
  · rw [if_pos hs, Std.ExtTreeMap.getElem?_insertIfNew] at hk
    split at hk
    · rename_i hnew
      cases hk
      exact ⟨s, by rw [hget, if_pos rfl], hs, Std.LawfulEqCmp.eq_of_compare hnew.1⟩
    · exact hold text k hk
  · rw [if_neg hs] at hk
    exact hold text k hk

/-- What a definition does: it binds a number that is free to the symbol that the text names. -/
theorem define_eq_ok {code : Int} {text : String} : b.define code text = (.ok (), b') ↔
    ∃ id s names, Text.word32? code = some id ∧ id ∉ b.symbols ∧ Symbol.ofText b.names text = (.ok s, names) ∧
      b' = { b with names }.bind id s := by
  unfold define
  cases hw : Text.word32? code with
  | none => simp
  | some id =>
    by_cases hid : id ∈ b.symbols
    · simp [hid]
    · rcases hs : Symbol.ofText b.names text with ⟨_ | s, names⟩
      · simp [hid]
      · simp [hid, eq_comm]

theorem isFaithful_define (h : b.finish.IsFaithful) {code : Int} {text : String}
    (hd : b.define code text = (.ok (), b')) : b'.finish.IsFaithful := by
  obtain ⟨id, s, names, -, hid, -, rfl⟩ := define_eq_ok.1 hd
  exact isFaithful_bind (b := { b with names }) h hid s

end Builder

/-! ### Splitting an input -/

variable {t : SymbolTable}

theorem code?_of_longestMatch? {cs : List Char} {n id k : Nat} (h : t.longestMatch? cs n = some (id, k)) :
    t.code? (String.ofList (cs.take k)) = some id ∧ 0 < k := by
  induction n with
  | zero => cases h
  | succ n ih =>
    unfold longestMatch? at h
    split at h
    · rename_i hc
      cases h
      exact ⟨hc, Nat.succ_pos n⟩
    · exact ih h

/-- The pieces that an input is split into have the numbers in the split, and joined they are the input. -/
theorem exists_pieces_of_splitFrom {n position : Nat} {cs : List Char} {ids : List Nat}
    (h : t.splitFrom n position cs = .ok ids) :
    ∃ pieces : List String, List.Forall₂ (fun id piece => t.code? piece = some id) ids pieces ∧
      String.join pieces = String.ofList cs := by
  induction position, cs using splitFrom.induct t n generalizing ids with
  | case1 position =>
    rw [splitFrom] at h
    cases h
    exact ⟨[], .nil, rfl⟩
  | case2 position c cs hm =>
    rw [splitFrom, hm] at h
    cases h
  | case3 position c cs id k hm used =>
    rename_i ih
    rw [splitFrom, hm] at h
    simp only at h
    obtain ⟨hcode, hk⟩ := code?_of_longestMatch? hm
    obtain ⟨rest, hrest, rfl⟩ := map_eq_ok.1 h
    obtain ⟨pieces, hpieces, hjoin⟩ := ih hrest
    refine ⟨String.ofList ((c :: cs).take k) :: pieces, .cons hcode hpieces, ?_⟩
    -- the recursion drops from the tail, for every piece has the first character
    have hdrop : cs.drop (k - 1) = (c :: cs).drop k := by
      obtain ⟨k, rfl⟩ : ∃ m, k = m + 1 := ⟨k - 1, by omega⟩
      rfl
    rw [String.join_cons, hjoin, hdrop, ← String.ofList_append, List.take_append_drop]

theorem splitFrom_of_split {text : String} {ids : List Nat} (h : t.split text = .ok ids) :
    t.splitFrom t.longestText 0 text.toList = .ok ids := by
  unfold split at h
  split at h
  · rename_i hs
    cases h
    exact hs
  · cases h

/-! ### Written forms -/

private theorem writtenForm_append (a b : List Symbol) : writtenForm (a ++ b) = writtenForm a ++ writtenForm b := by
  rw [writtenForm, List.map_append, String.join_append, writtenForm, writtenForm]

private theorem writtenForm_flatten (parts : List (List Symbol)) :
    String.join (parts.map writtenForm) = writtenForm parts.flatten := by
  induction parts with
  | nil => rfl
  | cons part parts ih => rw [List.map_cons, String.join_cons, ih, List.flatten_cons, writtenForm_append]

theorem writtenForm_map_grapheme (run : List Char) : writtenForm (run.map .grapheme) = String.ofList run := by
  induction run with
  | nil => rfl
  | cons c run ih =>
    rw [writtenForm] at ih
    rw [writtenForm, List.map_cons, List.map_cons, String.join_cons, ih, ← String.toList_inj]
    simp [Symbol.surface]

/-- Characters stand together. -/
theorem isChain_map_grapheme (run : List Char) :
    (run.map Symbol.grapheme).IsChain fun a b => (a.isGrapheme && b.isGrapheme) = true := by
  refine List.Pairwise.isChain (List.pairwise_of_forall_mem_list fun a ha b hb => ?_)
  obtain ⟨c, -, rfl⟩ := List.mem_map.1 ha
  obtain ⟨c', -, rfl⟩ := List.mem_map.1 hb
  rfl

/-- Symbols cut between each two that are not both characters. -/
def cutSymbols (symbols : List Symbol) : List (List Symbol) :=
  symbols.splitBy fun a b => a.isGrapheme && b.isGrapheme

private theorem cutSymbols_run (run : List Char) : (cutSymbols (run.map .grapheme)).map writtenForm = endRun run := by
  cases run with
  | nil => rfl
  | cons c run =>
    rw [cutSymbols, List.splitBy_of_isChain (by simp) (isChain_map_grapheme _), List.map_singleton,
      writtenForm_map_grapheme]
    rfl

/-- A tag is cut off on both sides. -/
private theorem cutSymbols_append_multichar (run : List Char) (tag : String) (symbols : List Symbol) :
    cutSymbols (run.map .grapheme ++ .multichar tag :: symbols) =
      cutSymbols (run.map .grapheme) ++ [.multichar tag] :: cutSymbols symbols := by
  have hbehind : cutSymbols (.multichar tag :: symbols) = [.multichar tag] :: cutSymbols symbols := by
    refine (List.splitBy_append (l := [.multichar tag]) (m := symbols) ?_).trans rfl
    simp [Symbol.isGrapheme]
  rw [← hbehind]
  refine List.splitBy_append ?_
  simp [Symbol.isGrapheme]

private theorem ordinary_cons (t : SymbolTable) (id : Nat) (output : List Nat) :
    t.ordinary (id :: output) = ((t.get? id).filter (·.isOrdinary)).toList ++ t.ordinary output := by
  rw [ordinary]
  cases hs : t.get? id with
  | none => rw [List.filterMap_cons_none hs]; rfl
  | some s =>
    rw [List.filterMap_cons_some hs, List.filter_cons, Option.filter_some]
    split <;> rfl

/-- The open run stands in front of the symbols to come. -/
private theorem partsBehind_eq (t : SymbolTable) (run : List Char) (output : List Nat) : t.partsBehind run output =
    (cutSymbols (run.map .grapheme ++ t.ordinary output)).map writtenForm := by
  induction output generalizing run with
  | nil => rw [partsBehind, ordinary, List.filterMap_nil, List.filter_nil, List.append_nil, cutSymbols_run]
  | cons id output ih =>
    rw [partsBehind, ordinary_cons]
    cases t.get? id with
    | none => exact ih run
    | some s =>
      cases s with
      | grapheme c =>
        refine (ih (run ++ [c])).trans ?_
        rw [List.map_append, List.append_assoc]
        rfl
      | multichar tag =>
        show endRun run ++ tag :: t.partsBehind [] output =
          (cutSymbols (run.map .grapheme ++ .multichar tag :: t.ordinary output)).map writtenForm
        rw [cutSymbols_append_multichar, List.map_append, List.map_cons, cutSymbols_run, ih []]
        simp [writtenForm, Symbol.surface]
      | epsilon | unknown | identity | flag => exact ih run

/-- An analysis has the symbols with a text of their own, cut where a tag is on one of the sides. -/
theorem analysis_eq (t : SymbolTable) (output : List Nat) :
    t.analysis output = (cutSymbols (t.ordinary output)).map writtenForm :=
  t.partsBehind_eq [] output

/-- The parts of an analysis, one behind the other, are the form of the same output. -/
theorem join_analysis (t : SymbolTable) (output : List Nat) : String.join (t.analysis output) = t.form output := by
  rw [analysis_eq, writtenForm_flatten, cutSymbols, List.flatten_splitBy, form]

private theorem form_of_pieces (hf : t.IsFaithful) {ids : List Nat} {pieces : List String}
    (h : List.Forall₂ (fun id piece => t.code? piece = some id) ids pieces) : t.form ids = String.join pieces := by
  induction h with
  | nil => rfl
  | @cons id piece ids pieces hcode _ ih =>
    obtain ⟨s, hs, hordinary, htext⟩ := hf piece id hcode
    have hget : t.get? id = some s := get?_of_some hs
    have hform : t.form (id :: ids) = s.surface ++ t.form ids := by
      rw [form, ordinary, List.filterMap_cons_some hget, List.filter_cons_of_pos hordinary, writtenForm,
        List.map_cons, String.join_cons]
      rfl
    rw [hform, ih, String.join_cons, Symbol.surface_eq_text hordinary, htext]

/-- What an input is split into spells the input. -/
theorem form_of_split (hf : t.IsFaithful) {text : String} {ids : List Nat} (h : t.split text = .ok ids) :
    t.form ids = text := by
  obtain ⟨pieces, hpieces, hjoin⟩ := exists_pieces_of_splitFrom (splitFrom_of_split h)
  rw [form_of_pieces hf hpieces, hjoin, String.ofList_toList]

theorem exists_code?_of_mem {ids : List Nat} {pieces : List String}
    (h : List.Forall₂ (fun id piece => t.code? piece = some id) ids pieces) {id : Nat} (hid : id ∈ ids) :
    ∃ piece, t.code? piece = some id := by
  induction h with
  | nil => cases hid
  | @cons _ piece _ _ hcode _ ih =>
    rcases List.mem_cons.1 hid with rfl | hid
    · exact ⟨piece, hcode⟩
    · exact ih hid

/-- An input holds no flag. -/
theorem flag?_of_split (hf : t.IsFaithful) {text : String} {ids : List Nat} (h : t.split text = .ok ids) {id : Nat}
    (hid : id ∈ ids) : t.flag? id = none := by
  obtain ⟨pieces, hpieces, -⟩ := exists_pieces_of_splitFrom (splitFrom_of_split h)
  obtain ⟨piece, hcode⟩ := exists_code?_of_mem hpieces hid
  obtain ⟨s, hs, hordinary, -⟩ := hf piece id hcode
  rw [flag?, hs]
  cases s with
  | flag f => cases hordinary
  | epsilon | unknown | identity | grapheme c | multichar text => rfl

end SymbolTable

end LexicalTransducer
