import LexicalTransducer.Graph.Basic
import LexicalTransducer.Proofs.Symbol.Spelling

/-!
# The longest match

To cut an input is to take the longest text of the table off its front, again and again (`Cuts`).  There is one way to
do this to the end, and splitting an input does it (`split_eq_ok_iff`) or says how many bytes have been cut off where no
text fits any more (`split_eq_error_iff`).  All this is so if the table has no empty text.
-/

namespace LexicalTransducer

namespace SymbolTable

/-- A text of the table that an input begins with. -/
structure Fits (t : SymbolTable) (cs : List Char) (piece : String) : Prop where
  code : (t.code? piece).isSome
  isPrefix : piece.toList <+: cs

structure IsLongest (t : SymbolTable) (cs : List Char) (piece : String) : Prop extends t.Fits cs piece where
  length_le : ∀ other, t.Fits cs other → other.length ≤ piece.length

/-- No text of the table fits. -/
def IsStuck (t : SymbolTable) (cs : List Char) : Prop :=
  ∀ piece, ¬ t.Fits cs piece

/-- An input with some pieces cut off, each the longest that fits, and what is left of it. -/
inductive Cuts (t : SymbolTable) : List Char → List String → List Char → Prop
  | nil (cs : List Char) : Cuts t cs [] cs
  | cons {cs last : List Char} {piece : String} {pieces : List String} (h : t.IsLongest cs piece)
      (hc : Cuts t (cs.drop piece.length) pieces last) : Cuts t cs (piece :: pieces) last

variable {t : SymbolTable} {cs last last' : List Char} {piece piece' : String} {pieces pieces' : List String}

/-! ### Cutting an input -/

theorem Fits.toList_eq (h : t.Fits cs piece) : piece.toList = cs.take piece.length := by
  rw [List.prefix_iff_eq_take.1 h.isPrefix, String.length_toList]

theorem IsLongest.unique (h : t.IsLongest cs piece) (h' : t.IsLongest cs piece') : piece = piece' := by
  have hlength : piece.length = piece'.length :=
    Nat.le_antisymm (h'.length_le _ h.toFits) (h.length_le _ h'.toFits)
  rw [← String.toList_inj, h.toList_eq, h'.toList_eq, hlength]

/-- There is one way to cut an input until no text fits. -/
private theorem Cuts.unique (h : t.Cuts cs pieces last) (h' : t.Cuts cs pieces' last') (hs : t.IsStuck last)
    (hs' : t.IsStuck last') : pieces = pieces' ∧ last = last' := by
  induction h generalizing pieces' with
  | nil cs =>
    cases h' with
    | nil => exact ⟨rfl, rfl⟩
    | cons hl _ => exact absurd hl.toFits (hs _)
  | cons hl _ ih =>
    cases h' with
    | nil => exact absurd hl.toFits (hs' _)
    | cons hl' hc' =>
      obtain rfl := hl.unique hl'
      obtain ⟨rfl, rfl⟩ := ih hc' hs
      exact ⟨rfl, rfl⟩

/-- The pieces and what is left are the input. -/
theorem Cuts.toList_eq (h : t.Cuts cs pieces last) : cs = (String.join pieces).toList ++ last := by
  induction h with
  | nil cs => rfl
  | @cons cs last piece pieces hl _ ih =>
    rw [String.join_cons, String.toList_append, List.append_assoc, ← ih, hl.toList_eq, List.take_append_drop]

theorem isStuck_nil (hempty : t.code? "" = none) : t.IsStuck [] := by
  intro piece h
  have hpiece : piece = "" := by
    rw [← String.toList_inj, List.prefix_nil.1 h.isPrefix]
    rfl
  have hcode := h.code
  rw [hpiece, hempty] at hcode
  cases hcode

/-! ### The longest text that fits -/

private theorem length_le_longestText {id : Nat} (h : t.code? piece = some id) : piece.length ≤ t.longestText :=
  Graph.le_foldr_max (List.mem_map.2 ⟨(piece, id), Std.ExtTreeMap.mem_toList_iff_getElem?_eq_some.2 h, rfl⟩)

private theorem longestMatch?_eq_some {n id k : Nat} (h : t.longestMatch? cs n = some (id, k)) :
    k ≤ n ∧ ∀ j, k < j → j ≤ n → t.code? (String.ofList (cs.take j)) = none := by
  induction n with
  | zero => cases h
  | succ n ih =>
    unfold longestMatch? at h
    split at h
    · cases h
      exact ⟨Nat.le_refl _, fun j hk hj => absurd hk (by omega)⟩
    · rename_i hnone
      obtain ⟨hk, hlonger⟩ := ih h
      refine ⟨by omega, fun j hkj hj => ?_⟩
      rcases Nat.lt_or_eq_of_le hj with hj | rfl
      · exact hlonger j hkj (by omega)
      · exact hnone

private theorem longestMatch?_eq_none {n : Nat} (h : t.longestMatch? cs n = none) {j : Nat} (h0 : 0 < j) (hj : j ≤ n) :
    t.code? (String.ofList (cs.take j)) = none := by
  induction n with
  | zero => omega
  | succ n ih =>
    unfold longestMatch? at h
    split at h
    · cases h
    · rename_i hnone
      rcases Nat.lt_or_eq_of_le hj with hj | rfl
      · exact ih h (by omega)
      · exact hnone

/-- A text that fits is among those that are tried. -/
private theorem Fits.code?_take_ne_none (h : t.Fits cs piece) : piece.length ≤ min t.longestText cs.length ∧
    t.code? (String.ofList (cs.take piece.length)) ≠ none := by
  obtain ⟨id, hid⟩ := Option.isSome_iff_exists.1 h.code
  refine ⟨Nat.le_min.2 ⟨length_le_longestText hid, ?_⟩, ?_⟩
  · rw [← String.length_toList]
    exact h.isPrefix.length_le
  · rw [← h.toList_eq, String.ofList_toList, hid]
    exact Option.some_ne_none id

private theorem isLongest_of_longestMatch? {id k : Nat}
    (h : t.longestMatch? cs (min t.longestText cs.length) = some (id, k)) :
    t.IsLongest cs (String.ofList (cs.take k)) ∧ (String.ofList (cs.take k)).length = k := by
  obtain ⟨hcode, -⟩ := code?_of_longestMatch? h
  obtain ⟨hk, hlonger⟩ := longestMatch?_eq_some h
  have hlength : (String.ofList (cs.take k)).length = k := by
    rw [String.length_ofList, List.length_take]
    omega
  refine ⟨⟨⟨Option.isSome_of_eq_some hcode, ?_⟩, fun other hother => ?_⟩, hlength⟩
  · rw [String.toList_ofList]
    exact List.take_prefix k cs
  · obtain ⟨hle, htaken⟩ := hother.code?_take_ne_none
    rw [hlength]
    by_contra hlt
    exact htaken (hlonger _ (by omega) hle)

private theorem isStuck_of_longestMatch? (hempty : t.code? "" = none)
    (h : t.longestMatch? cs (min t.longestText cs.length) = none) : t.IsStuck cs := by
  intro piece hpiece
  obtain ⟨hle, htaken⟩ := hpiece.code?_take_ne_none
  have hpos : 0 < piece.length := by
    rw [Nat.pos_iff_ne_zero]
    intro hzero
    have hcode := hpiece.code
    rw [String.length_eq_zero_iff.1 hzero, hempty] at hcode
    cases hcode
  exact htaken (longestMatch?_eq_none h hpos hle)

/-! ### Splitting an input -/

/-- The numbers of some texts. -/
def HaveCodes (t : SymbolTable) (ids : List Nat) (pieces : List String) : Prop :=
  List.Forall₂ (fun id piece => t.code? piece = some id) ids pieces

private theorem splitFrom_of_longestMatch? {position id k : Nat}
    (h : t.longestMatch? cs (min t.longestText cs.length) = some (id, k)) :
    t.splitFrom t.longestText position cs =
      (t.splitFrom t.longestText (position + (String.ofList (cs.take k)).utf8ByteSize) (cs.drop k)).map (id :: ·) := by
  obtain ⟨-, hk⟩ := code?_of_longestMatch? h
  cases cs with
  | nil =>
    rw [List.length_nil, Nat.min_zero] at h
    cases h
  | cons c cs =>
    rw [List.length_cons] at h
    obtain ⟨k, rfl⟩ : ∃ m, k = m + 1 := ⟨k - 1, by omega⟩
    rw [splitFrom, h]
    rfl

private theorem splitFrom_of_longestMatch?_eq_none {position : Nat} (hne : cs ≠ [])
    (h : t.longestMatch? cs (min t.longestText cs.length) = none) :
    t.splitFrom t.longestText position cs = .error position := by
  obtain ⟨c, cs, rfl⟩ := List.exists_cons_of_ne_nil hne
  rw [List.length_cons] at h
  rw [splitFrom, h]

/-- Every input can be cut until it is empty or no text fits, and splitting it does the same. -/
private theorem exists_cuts (hempty : t.code? "" = none) (position : Nat) (cs : List Char) :
    ∃ pieces last ids, t.Cuts cs pieces last ∧ t.IsStuck last ∧ t.HaveCodes ids pieces ∧
      t.splitFrom t.longestText position cs =
        if last = [] then .ok ids else .error (position + (String.join pieces).utf8ByteSize) := by
  -- by the length of what is left: a piece is not empty
  induction hn : cs.length using Nat.strong_induction_on generalizing cs position with
  | _ n ih =>
    subst hn
    by_cases hne : cs = []
    · subst hne
      refine ⟨[], [], [], .nil _, isStuck_nil hempty, .nil, ?_⟩
      rw [splitFrom]
      rfl
    cases hm : t.longestMatch? cs (min t.longestText cs.length) with
    | none =>
      refine ⟨[], cs, [], .nil _, isStuck_of_longestMatch? hempty hm, .nil, ?_⟩
      rw [splitFrom_of_longestMatch?_eq_none hne hm, if_neg hne]
      rfl
    | some found =>
      obtain ⟨id, k⟩ := found
      obtain ⟨hcode, hk⟩ := code?_of_longestMatch? hm
      obtain ⟨hlongest, hlength⟩ := isLongest_of_longestMatch? hm
      have hshorter : (cs.drop k).length < cs.length := by
        have := List.length_pos_iff.2 hne
        rw [List.length_drop]
        omega
      obtain ⟨pieces, last, ids, hcuts, hstuck, hcodes, hsplit⟩ :=
        ih _ hshorter (position + (String.ofList (cs.take k)).utf8ByteSize) (cs.drop k) rfl
      refine ⟨_, last, id :: ids, .cons hlongest (by rwa [hlength]), hstuck, .cons hcode hcodes, ?_⟩
      rw [splitFrom_of_longestMatch? hm, hsplit, String.join_cons, String.utf8ByteSize_append, Nat.add_assoc]
      split <;> rfl

theorem HaveCodes.unique {ids ids' : List Nat} (h : t.HaveCodes ids pieces) (h' : t.HaveCodes ids' pieces) :
    ids = ids' :=
  List.left_unique_forall₂' (fun _ _ _ hcode hcode' => Option.some.inj (hcode.symm.trans hcode')) h h'

theorem HaveCodes.isSome {ids : List Nat} (h : t.HaveCodes ids pieces) (hp : piece ∈ pieces) :
    (t.code? piece).isSome := by
  induction h with
  | nil => cases hp
  | cons hcode _ ih =>
    rcases List.mem_cons.1 hp with rfl | hp
    · exact Option.isSome_of_eq_some hcode
    · exact ih hp

variable {text : String} {ids : List Nat}

/-- How an input is cut until no text fits decides what splitting it answers. -/
theorem split_of_cuts (hempty : t.code? "" = none) (h : t.Cuts text.toList pieces last) (hs : t.IsStuck last) :
    ∃ ids, t.HaveCodes ids pieces ∧
      t.split text = if last = [] then .ok ids else .error ⟨text, (String.join pieces).utf8ByteSize⟩ := by
  obtain ⟨pieces', last', ids, hcuts, hstuck, hcodes, hsplit⟩ := exists_cuts hempty 0 text.toList
  obtain ⟨rfl, rfl⟩ := h.unique hcuts hs hstuck
  refine ⟨ids, hcodes, ?_⟩
  rw [split, hsplit]
  by_cases hlast : last = []
  · rw [if_pos hlast, if_pos hlast]
  · rw [if_neg hlast, if_neg hlast, Nat.zero_add]

theorem exists_cuts_split (hempty : t.code? "" = none) (text : String) :
    ∃ pieces last, t.Cuts text.toList pieces last ∧ t.IsStuck last := by
  obtain ⟨pieces, last, -, hcuts, hstuck, -⟩ := exists_cuts hempty 0 text.toList
  exact ⟨pieces, last, hcuts, hstuck⟩

/-- An input is split exactly if cutting off the longest texts consumes it, and then into the numbers of these. -/
theorem split_eq_ok_iff (hempty : t.code? "" = none) :
    t.split text = .ok ids ↔ ∃ pieces, t.Cuts text.toList pieces [] ∧ t.HaveCodes ids pieces := by
  constructor
  · intro h
    obtain ⟨pieces, last, hcuts, hstuck⟩ := exists_cuts_split hempty text
    obtain ⟨ids', hcodes, hsplit⟩ := split_of_cuts hempty hcuts hstuck
    rw [h] at hsplit
    split at hsplit
    · rename_i hlast
      cases hsplit
      exact ⟨pieces, hlast ▸ hcuts, hcodes⟩
    · cases hsplit
  · rintro ⟨pieces, hcuts, hcodes⟩
    obtain ⟨ids', hcodes', hsplit⟩ := split_of_cuts hempty hcuts (isStuck_nil hempty)
    rw [hsplit, if_pos rfl, hcodes.unique hcodes']

/-- A text of the table is split into its number alone. -/
theorem split_of_code? {id : Nat} (hempty : t.code? "" = none) (h : t.code? text = some id) :
    t.split text = .ok [id] := by
  have hlongest : t.IsLongest text.toList text := by
    refine ⟨⟨Option.isSome_of_eq_some h, List.prefix_refl _⟩, fun other hother => ?_⟩
    rw [← String.length_toList, ← String.length_toList]
    exact hother.isPrefix.length_le
  have hcuts : t.Cuts text.toList [text] [] := by
    refine .cons hlongest ?_
    rw [← String.length_toList, List.drop_length]
    exact .nil []
  exact (split_eq_ok_iff hempty).2 ⟨[text], hcuts, .cons h .nil⟩

/-- An input is outside the alphabet exactly if no text fits the rest of it behind some pieces. -/
theorem split_eq_error_iff (hempty : t.code? "" = none) {e : OutOfAlphabet} : t.split text = .error e ↔
    e.input = text ∧ ∃ pieces last, t.Cuts text.toList pieces last ∧ last ≠ [] ∧ t.IsStuck last ∧
      e.position = (String.join pieces).utf8ByteSize := by
  constructor
  · intro h
    obtain ⟨pieces, last, hcuts, hstuck⟩ := exists_cuts_split hempty text
    obtain ⟨ids, -, hsplit⟩ := split_of_cuts hempty hcuts hstuck
    rw [h] at hsplit
    split at hsplit
    · cases hsplit
    · rename_i hlast
      cases hsplit
      exact ⟨rfl, pieces, last, hcuts, hlast, hstuck, rfl⟩
  · rintro ⟨rfl, pieces, last, hcuts, hlast, hstuck, hposition⟩
    obtain ⟨ids, -, hsplit⟩ := split_of_cuts hempty hcuts hstuck
    rw [hsplit, if_neg hlast, ← hposition]

/-! ### The symbols of an input -/

/-- Under the numbers of some texts are ordinary symbols with these texts. -/
theorem HaveCodes.symbols (h : t.HaveCodes ids pieces) (hf : t.IsFaithful) :
    (ids.filterMap t.get?).map Symbol.text = pieces ∧ ∀ s ∈ ids.filterMap t.get?, s.isOrdinary = true := by
  induction h with
  | nil => exact ⟨rfl, fun s hs => by cases hs⟩
  | @cons id piece ids pieces hcode _ ih =>
    obtain ⟨s, hs, hordinary, htext⟩ := hf piece id hcode
    rw [List.filterMap_cons_some (get?_of_some hs), List.map_cons, ih.1, htext]
    exact ⟨rfl, List.forall_mem_cons.2 ⟨hordinary, ih.2⟩⟩

/-- A character that stands in no text of the table keeps an input from being split. -/
theorem not_split_of_mem {c : Char} (hc : c ∈ text.toList)
    (hnone : ∀ piece, (t.code? piece).isSome → c ∉ piece.toList) : t.split text ≠ .ok ids := by
  intro h
  obtain ⟨pieces, hcodes, hjoin⟩ := exists_pieces_of_splitFrom (splitFrom_of_split h)
  rw [← String.toList_inj, String.toList_join, String.toList_ofList] at hjoin
  rw [← hjoin] at hc
  obtain ⟨piece, hpiece, hcp⟩ := List.mem_flatMap.1 hc
  exact hnone piece (HaveCodes.isSome hcodes hpiece) hcp

end SymbolTable

end LexicalTransducer
