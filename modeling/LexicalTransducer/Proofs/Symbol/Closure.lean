import LexicalTransducer.Proofs.Symbol.FirstDefinition
import LexicalTransducer.Proofs.Symbol.LongestMatch

/-!
# Texts of a table written together

Some texts of a table written one behind the other need not be an input that can be split: a longer text can win over
the end of one of them and the beginning of the next (`split_abc`).  All such inputs can be split exactly if what is
left of a text behind such an overlap is always made of texts again (`ResolvesOverlaps`, `split_join_iff`).
-/

namespace LexicalTransducer

private theorem exists_append_of_append_eq {a b c d : String} (h : a ++ b = c ++ d) :
    (∃ s, c = a ++ s ∧ b = s ++ d) ∨ ∃ s, a = c ++ s ∧ d = s ++ b := by
  simp only [← String.toList_inj, String.toList_append] at h ⊢
  rcases List.append_eq_append_iff.1 h with ⟨cs, hc, hb⟩ | ⟨cs, ha, hd⟩
  · exact .inl ⟨String.ofList cs, by simpa using hc, by simpa using hb⟩
  · exact .inr ⟨String.ofList cs, by simpa using ha, by simpa using hd⟩

/-- A place in some texts written together lies between two of them or inside one. -/
private theorem join_eq_append {pieces : List String} {front back : String} (h : String.join pieces = front ++ back) :
    (∃ ps qs, pieces = ps ++ qs ∧ front = String.join ps ∧ back = String.join qs) ∨
      ∃ ps next rest qs, pieces = ps ++ (next ++ rest) :: qs ∧ next ≠ "" ∧ rest ≠ "" ∧
        front = String.join ps ++ next ∧ back = rest ++ String.join qs := by
  induction pieces generalizing front with
  | nil =>
    obtain ⟨rfl, rfl⟩ := String.append_eq_empty_iff.1 h.symm
    exact .inl ⟨[], [], rfl, rfl, rfl⟩
  | cons piece pieces ih =>
    rw [String.join_cons] at h
    rcases exists_append_of_append_eq h with ⟨s, rfl, hs⟩ | ⟨rest, rfl, rfl⟩
    · -- the place lies behind the first text
      rcases ih hs with ⟨ps, qs, rfl, rfl, rfl⟩ | ⟨ps, next, rest, qs, rfl, hnext, hrest, rfl, rfl⟩
      · exact .inl ⟨piece :: ps, qs, rfl, by rw [String.join_cons], rfl⟩
      · refine .inr ⟨piece :: ps, next, rest, qs, rfl, hnext, hrest, ?_, rfl⟩
        rw [String.join_cons, String.append_assoc]
    · by_cases hfront : front = ""
      · subst hfront
        exact .inl ⟨[], _, rfl, rfl, by rw [String.join_cons, String.empty_append]⟩
      by_cases hrest : rest = ""
      · subst hrest
        exact .inl ⟨[front ++ ""], pieces, rfl, by simp, by simp⟩
      · exact .inr ⟨[], front, rest, pieces, rfl, hfront, hrest, by simp, rfl⟩

namespace SymbolTable

/-- A text that is made of texts of the table. -/
def IsComposed (t : SymbolTable) (text : String) : Prop :=
  ∃ pieces : List String, (∀ piece ∈ pieces, (t.code? piece).isSome) ∧ text = String.join pieces

/-- A text wins that ends inside another one, in front of `rest`: it begins with texts of the table and goes on with the
beginning of the other one. -/
structure Overlaps (t : SymbolTable) (winner rest : String) : Prop where
  isLongest : t.IsLongest (winner ++ rest).toList winner
  exists_next : ∃ front next, winner = front ++ next ∧ t.IsComposed front ∧ next ≠ "" ∧ (t.code? (next ++ rest)).isSome

/-- What an overlap leaves of a text is made of texts again. -/
def ResolvesOverlaps (t : SymbolTable) : Prop :=
  ∀ winner rest, t.Overlaps winner rest → t.IsComposed rest

variable {t : SymbolTable} {cs last : List Char} {text winner rest piece : String} {pieces : List String}

/-! ### Composed texts -/

private theorem isComposed_join (h : ∀ piece ∈ pieces, (t.code? piece).isSome) : t.IsComposed (String.join pieces) :=
  ⟨pieces, h, rfl⟩

private theorem IsComposed.append {text' : String} (h : t.IsComposed text) (h' : t.IsComposed text') :
    t.IsComposed (text ++ text') := by
  obtain ⟨pieces, hpieces, rfl⟩ := h
  obtain ⟨pieces', hpieces', rfl⟩ := h'
  rw [← String.join_append]
  exact isComposed_join fun piece hp => (List.mem_append.1 hp).elim (hpieces piece) (hpieces' piece)

/-- A composed text begins with a text of the table, unless it is empty. -/
private theorem IsComposed.eq_empty (h : t.IsComposed text) (hs : t.IsStuck text.toList) : text = "" := by
  obtain ⟨pieces, hpieces, rfl⟩ := h
  cases pieces with
  | nil => rfl
  | cons piece pieces =>
    refine absurd ⟨hpieces piece (by simp), ?_⟩ (hs piece)
    rw [String.join_cons, String.toList_append]
    exact List.prefix_append _ _

private theorem isComposed_of_chars (h : ∀ c ∈ text.toList, (t.code? (String.singleton c)).isSome) :
    t.IsComposed text := by
  refine ⟨text.toList.map String.singleton, by simpa using h, ?_⟩
  rw [← String.toList_inj, String.toList_join, List.flatMap_map]
  simp

/-! ### Cutting composed texts -/

private theorem Fits.eq_append (h : t.Fits cs piece) :
    String.ofList cs = piece ++ String.ofList (cs.drop piece.length) := by
  rw [← String.toList_inj, String.toList_append, h.toList_eq]
  simp

/-- If all overlaps are resolved, a composed text without its longest beginning is composed. -/
private theorem IsComposed.of_append (hr : t.ResolvesOverlaps) (h : t.IsComposed (winner ++ rest))
    (hl : t.IsLongest (winner ++ rest).toList winner) : t.IsComposed rest := by
  obtain ⟨pieces, hpieces, hjoin⟩ := h
  rcases join_eq_append hjoin.symm with ⟨ps, qs, rfl, -, rfl⟩ | ⟨ps, next, left, qs, rfl, hnext, -, rfl, rfl⟩
  · exact isComposed_join fun piece hp => hpieces piece (by simp [hp])
  · have hps : t.IsComposed (String.join ps) := isComposed_join fun piece hp => hpieces piece (by simp [hp])
    have hqs : t.IsComposed (String.join qs) := isComposed_join fun piece hp => hpieces piece (by simp [hp])
    refine (hr (String.join ps ++ next) left ⟨⟨⟨hl.code, ?_⟩, fun other ho => ?_⟩, ?_⟩).append hqs
    · simp only [String.toList_append]
      exact List.prefix_append _ _
    · -- what fits in front of fewer characters fits in front of all of them
      refine hl.length_le other ⟨ho.code, ho.isPrefix.trans ?_⟩
      simp only [String.toList_append, ← List.append_assoc]
      exact List.prefix_append _ _
    · exact ⟨_, next, rfl, hps, hnext, hpieces _ (by simp)⟩

private theorem Cuts.isComposed (hr : t.ResolvesOverlaps) (hc : t.Cuts cs pieces last)
    (h : t.IsComposed (String.ofList cs)) : t.IsComposed (String.ofList last) := by
  induction hc with
  | nil cs => exact h
  | cons hl _ ih =>
    have hcs := hl.eq_append
    refine ih (.of_append hr (by rwa [← hcs]) ?_)
    rwa [← hcs, String.toList_ofList]

/-- A table that has all characters of its texts resolves all overlaps. -/
private theorem resolvesOverlaps_of_chars
    (h : ∀ piece, (t.code? piece).isSome → ∀ c ∈ piece.toList, (t.code? (String.singleton c)).isSome) :
    t.ResolvesOverlaps := by
  rintro winner rest ⟨-, front, next, -, -, -, hover⟩
  exact isComposed_of_chars fun c hc => h _ hover c (by simp [hc])

/-! ### Splitting composed texts -/

private theorem IsComposed.exists_split (hempty : t.code? "" = none) (hr : t.ResolvesOverlaps) (h : t.IsComposed text) :
    ∃ ids, t.split text = .ok ids := by
  obtain ⟨pieces, last, hcuts, hstuck⟩ := exists_cuts_split hempty text
  have hlast : t.IsComposed (String.ofList last) := hcuts.isComposed hr (by rwa [String.ofList_toList])
  have hnil := hlast.eq_empty (by rwa [String.toList_ofList])
  obtain ⟨ids, -, hsplit⟩ := split_of_cuts hempty hcuts hstuck
  exact ⟨ids, by rw [hsplit, if_pos (String.ofList_eq_empty_iff.1 hnil)]⟩

/-- Splitting a text that begins with an overlap cuts what is left into texts of the table. -/
private theorem Overlaps.isComposed_of_split (hempty : t.code? "" = none) (h : t.Overlaps winner rest) {ids : List Nat}
    (hs : t.split (winner ++ rest) = .ok ids) : t.IsComposed rest := by
  obtain ⟨pieces, hcuts, hcodes⟩ := (split_eq_ok_iff hempty).1 hs
  have hlongest := h.isLongest
  generalize hcs : (winner ++ rest).toList = cs at hcuts hlongest
  cases hcuts with
  | nil =>
    have hrest : rest = "" := by
      rw [String.toList_eq_nil_iff, String.append_eq_empty_iff] at hcs
      exact hcs.2
    exact ⟨[], by simp, hrest⟩
  | @cons _ _ piece pieces hl hc =>
    obtain rfl := hl.unique hlongest
    refine ⟨pieces, fun piece hp => hcodes.isSome (List.mem_cons_of_mem _ hp), ?_⟩
    have hjoin := hc.toList_eq
    rw [← hcs, String.toList_append, ← String.length_toList, List.drop_left, List.append_nil] at hjoin
    exact String.toList_inj.1 hjoin

private theorem resolvesOverlaps_of_split (hempty : t.code? "" = none)
    (h : ∀ pieces : List String, (∀ piece ∈ pieces, (t.code? piece).isSome) →
      ∃ ids, t.split (String.join pieces) = .ok ids) : t.ResolvesOverlaps := by
  intro winner rest ho
  obtain ⟨_, next, rfl, ⟨pieces, hpieces, rfl⟩, -, hover⟩ := ho.exists_next
  obtain ⟨ids, hids⟩ := h (pieces ++ [next ++ rest]) fun piece hp => by
    rcases List.mem_append.1 hp with hp | hp
    · exact hpieces piece hp
    · rwa [List.mem_singleton.1 hp]
  have hjoin : String.join pieces ++ next ++ rest = String.join (pieces ++ [next ++ rest]) := by
    rw [String.join_append, String.append_assoc]
    simp
  exact ho.isComposed_of_split hempty (hjoin ▸ hids)

/-- Where texts of the table written together cannot be split, no text fits from a place inside one of them. -/
private theorem exists_inside_of_split_error (hempty : t.code? "" = none)
    (hpieces : ∀ piece ∈ pieces, (t.code? piece).isSome)
    {e : OutOfAlphabet} (h : t.split (String.join pieces) = .error e) :
    ∃ ps next rest qs, pieces = ps ++ (next ++ rest) :: qs ∧ next ≠ "" ∧ rest ≠ "" ∧
      e.position = (String.join ps ++ next).utf8ByteSize := by
  obtain ⟨-, cut, last, hcuts, hlast, hstuck, hposition⟩ := (split_eq_error_iff hempty).1 h
  have hjoin : String.join pieces = String.join cut ++ String.ofList last := by
    rw [← String.toList_inj, String.toList_append, String.toList_ofList, hcuts.toList_eq]
  rcases join_eq_append hjoin with ⟨ps, qs, rfl, -, hqs⟩ | ⟨ps, next, rest, qs, rfl, hnext, hrest, hcut, -⟩
  · -- between two texts the second one would fit
    have hcomposed : t.IsComposed (String.ofList last) := by
      rw [hqs]
      exact isComposed_join fun piece hp => hpieces piece (by simp [hp])
    have hnil := hcomposed.eq_empty (by rwa [String.toList_ofList])
    exact absurd (String.ofList_eq_empty_iff.1 hnil) hlast
  · exact ⟨ps, next, rest, qs, rfl, hnext, hrest, by rw [hposition, hcut]⟩

/-- All texts of a finished table written together can be split exactly if what an overlap leaves is always made of
texts again, as in a table with all characters of its texts.  Some that cannot be split are split up to a place inside
one of them. -/
theorem split_join_iff (calls : List (Int × String)) :
    ((∀ pieces : List String, (∀ piece ∈ pieces, ((tableOf calls).code? piece).isSome) →
      ∃ ids, (tableOf calls).split (String.join pieces) = .ok ids) ↔ (tableOf calls).ResolvesOverlaps) ∧
    ((∀ piece, ((tableOf calls).code? piece).isSome →
      ∀ c ∈ piece.toList, ((tableOf calls).code? (String.singleton c)).isSome) → (tableOf calls).ResolvesOverlaps) ∧
    ∀ pieces e, (∀ piece ∈ pieces, ((tableOf calls).code? piece).isSome) →
      (tableOf calls).split (String.join pieces) = .error e →
        ∃ ps next rest qs, pieces = ps ++ (next ++ rest) :: qs ∧ next ≠ "" ∧ rest ≠ "" ∧
          e.position = (String.join ps ++ next).utf8ByteSize := by
  have hempty := code?_tableOf_empty calls
  refine ⟨⟨resolvesOverlaps_of_split hempty, fun hr pieces hpieces => ?_⟩, resolvesOverlaps_of_chars,
    fun pieces e hpieces he => exists_inside_of_split_error hempty hpieces he⟩
  exact (isComposed_join hpieces).exists_split hempty hr

/-- A tag `ab` that begins with the character `a` and ends inside the tag `bc`. -/
def overlappingCalls : List (Int × String) :=
  [(3, "a"), (4, "ab"), (5, "bc")]

/-- The text `abc` is made of `a` and `bc`, but the longest match is `ab`, and nothing begins with `c`. -/
theorem split_abc : (∀ piece ∈ ["a", "bc"], ((tableOf overlappingCalls).code? piece).isSome) ∧
    (tableOf overlappingCalls).split (String.join ["a", "bc"]) = .error ⟨"abc", 2⟩ := by
  have hjoin : String.join ["a", "bc"] = "abc" := by decide +kernel
  have hchars : "abc".toList = ['a', 'b', 'c'] := by decide +kernel
  have hlong : (tableOf overlappingCalls).longestText = 2 := by decide +kernel
  have hfirst : (tableOf overlappingCalls).longestMatch? ['a', 'b', 'c'] 2 = some (4, 2) := by decide +kernel
  have hnone : (tableOf overlappingCalls).longestMatch? ['c'] 1 = none := by decide +kernel
  have hsize : (String.ofList ['a', 'b']).utf8ByteSize = 2 := by decide +kernel
  refine ⟨by decide +kernel, ?_⟩
  simp [hjoin, split, hchars, hlong, splitFrom, hfirst, hnone, hsize, Except.map]

end SymbolTable

end LexicalTransducer
