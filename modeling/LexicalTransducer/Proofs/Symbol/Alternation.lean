import LexicalTransducer.Proofs.Symbol.FirstDefinition
import LexicalTransducer.Proofs.Symbol.LongestMatch

/-!
# Splitting by an alternation

An input can also be split with a matcher that takes the first of some alternatives.  With the longest texts in front,
the first alternative that fits is the longest text (`find?_alternatives_eq_some`), so going over the bytes of an input
gives what splitting it gives (`tokenizes_iff`).
-/

namespace LexicalTransducer

namespace SymbolTable

/-- The texts of a table, the longest in front, and those of one length in their order. -/
def alternatives (t : SymbolTable) : List String :=
  (t.textEntries.map (·.1)).mergeSort fun a b => b.length < a.length ∨ a.length = b.length ∧ a ≤ b

/-- The matcher finds the first of its alternatives that an input begins with, if there is an alternative at all. -/
def PicksFirst (find : List String → List Char → Option String) : Prop :=
  ∀ alternatives, alternatives ≠ [] → ∀ cs, find alternatives cs = alternatives.find? (·.toList.isPrefixOf cs)

/-- The number and the bytes of what the matcher finds.  Without any text there is nothing to match with. -/
def matched (t : SymbolTable) (find : List String → List Char → Option String) (cs : List Char) :
    Option (Nat × Nat) :=
  if t.alternatives.isEmpty then none
  else (find t.alternatives cs).bind fun piece => (t.code? piece).map (·, piece.utf8ByteSize)

/-- What is left of an input behind its first bytes, if a character ends there. -/
def restFrom : List Char → Nat → Option (List Char)
  | cs, 0 => some cs
  | [], _ + 1 => none
  | c :: cs, n + 1 => if c.utf8Size ≤ n + 1 then restFrom cs (n + 1 - c.utf8Size) else none

/-- Going over an input from a byte on, with the numbers that have been found in front of it, and how this ends. -/
inductive Tokenizes (t : SymbolTable) (find : List String → List Char → Option String) (text : String) :
    Nat → List Nat → Except OutOfAlphabet (List Nat) → Prop
  | done {position : Nat} {ids : List Nat} (h : text.utf8ByteSize ≤ position) :
      Tokenizes t find text position ids (.ok ids)
  | stuck {position : Nat} {ids : List Nat} {cs : List Char} (h : position < text.utf8ByteSize)
      (hrest : restFrom text.toList position = some cs) (hm : t.matched find cs = none) :
      Tokenizes t find text position ids (.error ⟨text, position⟩)
  | found {position : Nat} {ids : List Nat} {cs : List Char} {id size : Nat} {answer : Except OutOfAlphabet (List Nat)}
      (h : position < text.utf8ByteSize) (hrest : restFrom text.toList position = some cs)
      (hm : t.matched find cs = some (id, size)) (hs : Tokenizes t find text (position + size) (ids ++ [id]) answer) :
      Tokenizes t find text position ids answer

variable {t : SymbolTable} {find : List String → List Char → Option String} {cs : List Char} {piece text : String}

/-! ### The alternatives -/

private theorem mem_alternatives : piece ∈ t.alternatives ↔ (t.code? piece).isSome := by
  rw [alternatives, List.mem_mergeSort, List.mem_map, Option.isSome_iff_exists]
  constructor
  · rintro ⟨⟨piece, id⟩, hmem, rfl⟩
    exact ⟨id, Std.ExtTreeMap.mem_toList_iff_getElem?_eq_some.1 hmem⟩
  · rintro ⟨id, hid⟩
    exact ⟨(piece, id), Std.ExtTreeMap.mem_toList_iff_getElem?_eq_some.2 hid, rfl⟩

private theorem fits_iff : t.Fits cs piece ↔ piece ∈ t.alternatives ∧ piece.toList.isPrefixOf cs = true := by
  rw [mem_alternatives, List.isPrefixOf_iff_prefix]
  exact ⟨fun h => ⟨h.code, h.isPrefix⟩, fun h => ⟨h.1, h.2⟩⟩

private theorem pairwise_alternatives (t : SymbolTable) : t.alternatives.Pairwise fun a b => b.length ≤ a.length := by
  refine (List.pairwise_mergeSort ?_ ?_ _).imp fun h => ?_
  · intro a b c hab hbc
    rw [decide_eq_true_eq] at hab hbc ⊢
    rcases hab with hab | ⟨hab, hle⟩
    · exact .inl (by omega)
    · rcases hbc with hbc | ⟨hbc, hle'⟩
      · exact .inl (by omega)
      · exact .inr ⟨hab.trans hbc, String.le_trans hle hle'⟩
  · intro a b
    rw [Bool.or_eq_true, decide_eq_true_eq, decide_eq_true_eq]
    rcases Nat.lt_trichotomy a.length b.length with hlt | heq | hlt
    · exact .inr (.inl hlt)
    · exact (String.le_total a b).imp (fun hle => .inr ⟨heq, hle⟩) fun hle => .inr ⟨heq.symm, hle⟩
    · exact .inl (.inl hlt)
  · rw [decide_eq_true_eq] at h
    omega

/-- The first alternative that fits is the longest text that does. -/
theorem find?_alternatives_eq_some :
    t.alternatives.find? (·.toList.isPrefixOf cs) = some piece ↔ t.IsLongest cs piece := by
  have hlongest : ∀ {piece}, t.alternatives.find? (·.toList.isPrefixOf cs) = some piece → t.IsLongest cs piece := by
    intro piece h
    have hfirst := List.find?_some h
    have hfits : t.Fits cs piece := fits_iff.2 ⟨List.mem_of_find?_eq_some h, hfirst⟩
    refine ⟨hfits, fun other hother => ?_⟩
    obtain ⟨-, before, behind, hsplit, hbefore⟩ := List.find?_eq_some_iff_append.1 h
    obtain ⟨hmem, hbegins⟩ := fits_iff.1 hother
    have hsorted := t.pairwise_alternatives
    rw [hsplit] at hmem hsorted
    rcases List.mem_append.1 hmem with hmem | hmem
    · -- the alternatives in front of the first one that fits do not fit
      have := hbefore other hmem
      rw [hbegins] at this
      cases this
    · rcases List.mem_cons.1 hmem with rfl | hmem
      · exact Nat.le_refl _
      · exact List.rel_of_pairwise_cons (List.pairwise_append.1 hsorted).2.1 hmem
  refine ⟨hlongest, fun h => ?_⟩
  cases hfound : t.alternatives.find? (·.toList.isPrefixOf cs) with
  | none =>
    obtain ⟨hmem, hbegins⟩ := fits_iff.1 h.toFits
    exact absurd hbegins (List.find?_eq_none.1 hfound piece hmem)
  | some first => rw [(hlongest hfound).unique h]

private theorem find?_alternatives_eq_none : t.alternatives.find? (·.toList.isPrefixOf cs) = none ↔ t.IsStuck cs := by
  rw [List.find?_eq_none]
  exact ⟨fun h piece hp => h piece (fits_iff.1 hp).1 (fits_iff.1 hp).2,
    fun h piece hmem hp => h piece (fits_iff.2 ⟨hmem, hp⟩)⟩

private theorem matched_of_isLongest (hfind : PicksFirst find) {id : Nat} (h : t.IsLongest cs piece)
    (hcode : t.code? piece = some id) : t.matched find cs = some (id, piece.utf8ByteSize) := by
  have hmem := (fits_iff.1 h.toFits).1
  have hne : t.alternatives ≠ [] := List.ne_nil_of_mem hmem
  rw [matched, if_neg (by simp [hne]), hfind _ hne, find?_alternatives_eq_some.2 h]
  simp [hcode]

private theorem matched_of_isStuck (hfind : PicksFirst find) (h : t.IsStuck cs) : t.matched find cs = none := by
  unfold matched
  split
  · rfl
  · rename_i hne
    rw [hfind _ (by simpa using hne), find?_alternatives_eq_none.2 h]
    rfl

/-! ### Going over an input -/

private theorem restFrom_zero (cs : List Char) : restFrom cs 0 = some cs := by
  cases cs <;> rfl

private theorem restFrom_append (front : List Char) (cs : List Char) :
    restFrom (front ++ cs) (String.ofList front).utf8ByteSize = some cs := by
  induction front with
  | nil => exact restFrom_zero cs
  | cons c front ih =>
    have hsize : (String.ofList (c :: front)).utf8ByteSize = c.utf8Size + (String.ofList front).utf8ByteSize := by
      rw [String.ofList_cons, String.utf8ByteSize_append, String.utf8ByteSize_singleton]
    have hpos := c.utf8Size_pos
    obtain ⟨n, hn⟩ : ∃ n, (String.ofList (c :: front)).utf8ByteSize = n + 1 :=
      ⟨(String.ofList (c :: front)).utf8ByteSize - 1, by omega⟩
    rw [hn, List.cons_append, restFrom, if_pos (by omega), ← ih]
    congr 1
    omega

private theorem utf8ByteSize_of_toList {front : List Char} (h : text.toList = front ++ cs) :
    text.utf8ByteSize = (String.ofList front).utf8ByteSize + (String.ofList cs).utf8ByteSize := by
  rw [← String.utf8ByteSize_append, ← String.ofList_append, ← h, String.ofList_toList]

private theorem lt_utf8ByteSize_of_toList {front : List Char} (h : text.toList = front ++ cs) (hne : cs ≠ []) :
    (String.ofList front).utf8ByteSize < text.utf8ByteSize := by
  have hpos : (String.ofList cs).utf8ByteSize ≠ 0 := by
    rw [ne_eq, String.utf8ByteSize_eq_zero_iff, String.ofList_eq_empty_iff]
    exact hne
  have hsize := utf8ByteSize_of_toList h
  omega

/-- Cutting the rest of an input into pieces is going over it, from the byte behind the characters in front of it. -/
private theorem tokenizes_of_cuts (hfind : PicksFirst find) (hempty : t.code? "" = none) {pieces : List String}
    {last front : List Char} (h : t.Cuts cs pieces last) (hs : t.IsStuck last) (htext : text.toList = front ++ cs)
    (ids : List Nat) : ∃ ids', t.HaveCodes ids' pieces ∧ t.Tokenizes find text (String.ofList front).utf8ByteSize ids
      (if last = [] then .ok (ids ++ ids')
        else .error ⟨text, (String.ofList front).utf8ByteSize + (String.join pieces).utf8ByteSize⟩) := by
  induction h generalizing front ids with
  | nil cs =>
    refine ⟨[], .nil, ?_⟩
    by_cases hlast : cs = []
    · subst hlast
      rw [if_pos rfl, List.append_nil]
      exact .done (Nat.le_of_eq (utf8ByteSize_of_toList htext))
    · rw [if_neg hlast]
      exact .stuck (lt_utf8ByteSize_of_toList htext hlast) (by rw [htext, restFrom_append])
        (matched_of_isStuck hfind hs)
  | @cons cs last piece pieces hl hc ih =>
    obtain ⟨id, hcode⟩ := Option.isSome_iff_exists.1 hl.code
    have hne : cs ≠ [] := by
      rintro rfl
      exact isStuck_nil hempty _ hl.toFits
    have htext' : text.toList = (front ++ piece.toList) ++ cs.drop piece.length := by
      rw [htext, List.append_assoc, hl.toList_eq, List.take_append_drop]
    have hfront : (String.ofList (front ++ piece.toList)).utf8ByteSize =
        (String.ofList front).utf8ByteSize + piece.utf8ByteSize := by
      rw [String.ofList_append, String.utf8ByteSize_append, String.ofList_toList]
    obtain ⟨ids', hcodes, hgo⟩ := ih hs htext' (ids ++ [id])
    refine ⟨id :: ids', .cons hcode hcodes, .found (lt_utf8ByteSize_of_toList htext hne)
      (by rw [htext, restFrom_append]) (matched_of_isLongest hfind hl hcode) ?_⟩
    rw [String.join_cons, String.utf8ByteSize_append]
    rwa [hfront, Nat.add_assoc, List.append_assoc, List.singleton_append] at hgo

private theorem Tokenizes.unique {position : Nat} {ids : List Nat} {answer answer' : Except OutOfAlphabet (List Nat)}
    (h : t.Tokenizes find text position ids answer) (h' : t.Tokenizes find text position ids answer') :
    answer = answer' := by
  induction h with
  | done h =>
    cases h' with
    | done _ => rfl
    | stuck h' | found h' => omega
  | stuck h hrest hm =>
    cases h' with
    | done h' => omega
    | stuck _ _ _ => rfl
    | found _ hrest' hm' _ =>
      cases hrest.symm.trans hrest'
      cases hm.symm.trans hm'
  | found h hrest hm _ ih =>
    cases h' with
    | done h' => omega
    | stuck _ hrest' hm' =>
      cases hrest.symm.trans hrest'
      cases hm.symm.trans hm'
    | found _ hrest' hm' hs' =>
      cases hrest.symm.trans hrest'
      cases hm.symm.trans hm'
      exact ih hs'

/-- With a matcher that picks the first alternative, going over an input ends, and with what splitting it answers. -/
theorem tokenizes_iff (hfind : PicksFirst find) (hempty : t.code? "" = none)
    {answer : Except OutOfAlphabet (List Nat)} : t.Tokenizes find text 0 [] answer ↔ answer = t.split text := by
  have hsplit : t.Tokenizes find text 0 [] (t.split text) := by
    obtain ⟨pieces, last, hcuts, hstuck⟩ := exists_cuts_split hempty text
    obtain ⟨ids, hcodes, hanswer⟩ := split_of_cuts hempty hcuts hstuck
    obtain ⟨ids', hcodes', hgo⟩ := tokenizes_of_cuts hfind hempty hcuts hstuck (List.nil_append _).symm []
    obtain rfl := hcodes.unique hcodes'
    rw [String.ofList_nil, String.utf8ByteSize_empty, Nat.zero_add, List.nil_append] at hgo
    rwa [hanswer]
  constructor
  · exact fun h => h.unique hsplit
  · rintro rfl
    exact hsplit

/-! ### Finished tables -/

private theorem Cuts.restFrom {pieces : List String} {last : List Char} (h : t.Cuts text.toList pieces last) :
    restFrom text.toList (String.join pieces).utf8ByteSize = some last := by
  have hrest := restFrom_append (String.join pieces).toList last
  rwa [← h.toList_eq, String.ofList_toList] at hrest

/-- A finished table splits an input by the longest match, and an alternation of its texts does the same.  The input is
cut into texts with their first numbers, and the symbols under these spell it; or there is a byte from which on no text
fits, as with a character that no text holds. -/
theorem split_tableOf (calls : List (Int × String)) (hfind : PicksFirst find) (text : String) :
    (∀ answer, (tableOf calls).Tokenizes find text 0 [] answer ↔ answer = (tableOf calls).split text) ∧
    (∀ ids, (tableOf calls).split text = .ok ids ↔
      ∃ pieces, (tableOf calls).Cuts text.toList pieces [] ∧ (tableOf calls).HaveCodes ids pieces) ∧
    (∀ e, (tableOf calls).split text = .error e ↔ e.input = text ∧ ∃ pieces last,
      (tableOf calls).Cuts text.toList pieces last ∧ last ≠ [] ∧ (tableOf calls).IsStuck last ∧
      restFrom text.toList e.position = some last ∧ e.position = (String.join pieces).utf8ByteSize) ∧
    (∀ piece id, (tableOf calls).code? piece = some id ↔
      IsOrdinaryText piece ∧ (Builder.accepted {} calls).find? (·.2 == piece) = some (id, piece)) ∧
    (∀ ids, (tableOf calls).split text = .ok ids → ∃ symbols, (tableOf calls).splitSymbols text = .ok symbols ∧
      symbols.length = ids.length ∧ (∀ s ∈ symbols, s.isOrdinary = true) ∧
      String.join (symbols.map Symbol.text) = text) ∧
    (∀ c ∈ text.toList, (∀ piece, ((tableOf calls).code? piece).isSome → c ∉ piece.toList) →
      ∃ e, (tableOf calls).split text = .error e) := by
  have hempty := code?_tableOf_empty calls
  refine ⟨fun answer => tokenizes_iff hfind hempty, fun ids => split_eq_ok_iff hempty, fun e => ?_,
    code?_tableOf calls, fun ids h => ?_, fun c hc hnone => ?_⟩
  · rw [split_eq_error_iff hempty]
    refine and_congr_right fun _ => exists_congr fun pieces => exists_congr fun last => ?_
    constructor
    · rintro ⟨hcuts, hlast, hstuck, hposition⟩
      exact ⟨hcuts, hlast, hstuck, by rw [hposition, hcuts.restFrom], hposition⟩
    · rintro ⟨hcuts, hlast, hstuck, -, hposition⟩
      exact ⟨hcuts, hlast, hstuck, hposition⟩
  · obtain ⟨pieces, hcuts, hcodes⟩ := (split_eq_ok_iff hempty).1 h
    obtain ⟨htexts, hordinary⟩ := hcodes.symbols (isFaithful_tableOf calls)
    refine ⟨_, by rw [splitSymbols, h]; rfl, ?_, hordinary, ?_⟩
    · rw [hcodes.length_eq, ← htexts, List.length_map]
    · rw [htexts, ← String.toList_inj, hcuts.toList_eq, List.append_nil]
  · cases hs : (tableOf calls).split text with
    | ok ids => exact absurd hs (not_split_of_mem hc hnone)
    | error e => exact ⟨e, rfl⟩

/-- The matcher that tries one alternative after the other. -/
def firstThatFits (alternatives : List String) (cs : List Char) : Option String :=
  alternatives.find? (·.toList.isPrefixOf cs)

/-- A number and a text that are defined twice, and a tag that begins with a character of the table. -/
def tagCalls : List (Int × String) :=
  [(3, "a"), (3, "z"), (4, "+"), (5, "+Pâ"), (6, "a")]

theorem tokenizes_tagCalls : PicksFirst firstThatFits ∧
    (tableOf tagCalls).Tokenizes firstThatFits "a+Pâ" 0 [] (.ok [3, 5]) ∧
    (tableOf tagCalls).Tokenizes firstThatFits "+Pâz" 0 [] (.error ⟨"+Pâz", 4⟩) := by
  have hfind : PicksFirst firstThatFits := fun _ _ _ => rfl
  have hlong : (tableOf tagCalls).longestText = 3 := by decide +kernel
  have htag : (tableOf tagCalls).longestMatch? ['+', 'P', 'â'] 3 = some (5, 3) := by decide +kernel
  have hsplit : (tableOf tagCalls).split "a+Pâ" = .ok [3, 5] := by
    have hchars : "a+Pâ".toList = ['a', '+', 'P', 'â'] := by decide +kernel
    have hfirst : (tableOf tagCalls).longestMatch? ['a', '+', 'P', 'â'] 3 = some (3, 1) := by decide +kernel
    simp [split, hchars, hlong, splitFrom, hfirst, htag, Except.map]
  have herror : (tableOf tagCalls).split "+Pâz" = .error ⟨"+Pâz", 4⟩ := by
    have hchars : "+Pâz".toList = ['+', 'P', 'â', 'z'] := by decide +kernel
    have hfirst : (tableOf tagCalls).longestMatch? ['+', 'P', 'â', 'z'] 3 = some (5, 3) := by decide +kernel
    have hnone : (tableOf tagCalls).longestMatch? ['z'] 1 = none := by decide +kernel
    have hsize : (String.ofList ['+', 'P', 'â']).utf8ByteSize = 4 := by decide +kernel
    simp [split, hchars, hlong, splitFrom, hfirst, hnone, hsize, Except.map]
  exact ⟨hfind, ((split_tableOf tagCalls hfind _).1 _).2 hsplit.symm,
    ((split_tableOf tagCalls hfind _).1 _).2 herror.symm⟩

end SymbolTable

end LexicalTransducer
