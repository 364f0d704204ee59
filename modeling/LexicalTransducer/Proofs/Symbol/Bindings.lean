import LexicalTransducer.Proofs.Symbol.FirstDefinition

/-!
# What a table binds

However many definitions fail on the way, a finished table holds what the accepted ones bind, and its parts agree with
each other (`tableOf_consistent`): each number has the symbol of its one definition, and each text of a character or a
tag the number of the earliest definition with it.
-/

namespace LexicalTransducer

namespace Symbol

variable {names names' : FlagNames} {text : String} {s : Symbol}

private theorem isOrdinary_iff : s.isOrdinary = true ↔ s.isGrapheme = true ∨ s.isMultichar = true :=
  Bool.or_eq_true_iff ..

private theorem isOrdinary_eq_false (h : s.isFlag = true ∨ s.isSentinel = true) : s.isOrdinary = false := by
  cases s with
  | grapheme | multichar => rcases h with h | h <;> cases h
  | epsilon | unknown | identity | flag => rfl

private theorem isSentinel_eq_false_iff :
    s.isSentinel = false ↔ s.isGrapheme = true ∨ s.isMultichar = true ∨ s.isFlag = true := by
  cases s <;> simp [isSentinel, isGrapheme, isMultichar, isFlag]

private theorem kind_of_isGrapheme (h : s.isGrapheme = true) : s.isMultichar = false ∧ s.isFlag = false := by
  cases s with
  | grapheme => exact ⟨rfl, rfl⟩
  | epsilon | unknown | identity | multichar | flag => cases h

private theorem kind_of_isMultichar (h : s.isMultichar = true) : s.isFlag = false := by
  cases s with
  | multichar => rfl
  | epsilon | unknown | identity | grapheme | flag => cases h

/-- A tag is longer than one character. -/
theorem two_le_length_of_isMultichar (h : ofText names text = (.ok s, names')) (hs : s.isMultichar = true) :
    2 ≤ s.text.length := by
  unfold ofText at h
  split at h
  · cases h
    cases hs
  split at h
  · cases h
    cases hs
  split at h
  · cases h
    cases hs
  split at h
  · cases h
  · cases h
    cases hs
  · rename_i hne hne1
    split at h
    · split at h <;> cases h
      cases hs
    · cases h
      show 2 ≤ text.length
      rw [← String.length_toList]
      match hc : text.toList with
      | [] => exact absurd hc hne
      | [c] => exact absurd hc (hne1 c)
      | c :: d :: cs => simp

/-- The numbers of a flag that has been read stand for its names. -/
private theorem numbers_of_ofText {f : Flag} (h : ofText names text = (.ok (.flag f), names')) :
    ∃ named, names'.Numbers f named := by
  rcases ofText_cases h with ⟨-, hs, -⟩ | ⟨f', hf, hread⟩
  · cases hs
  · cases hf
    have hnumbers := (names.grows_read text).2
    rw [hread] at hnumbers
    obtain ⟨named, -, hnumbers, -⟩ := hnumbers f rfl
    exact ⟨named, hnumbers⟩

end Symbol

namespace SymbolTable

namespace Builder

/-- The definition at the place `n` is accepted, and it binds the number `id` to the symbol `s` that its text names
there. -/
def Binds (calls : List (Int × String)) (n id : Nat) (text : String) (s : Symbol) : Prop :=
  calls[n]? = some ((id : Int), text) ∧ ∃ b' names,
    (built {} (calls.take n)).Defines (id, text) b' ∧
      Symbol.ofText (built {} (calls.take n)).names text = (.ok s, names)

variable {b b' : Builder} {calls : List (Int × String)} {e : Int × String} {n m id id' : Nat} {text text' : String}
  {s s' : Symbol} {fault : NetFault}

private theorem built_append_singleton (b : Builder) (calls : List (Int × String)) (e : Int × String) :
    b.built (calls ++ [e]) = ((b.built calls).define e.1 e.2).2 := by
  induction calls generalizing b with
  | nil => rfl
  | cons e' calls ih => exact ih _

private theorem Binds.lt_length (h : Binds calls n id text s) : n < calls.length :=
  (List.getElem?_eq_some_iff.1 h.1).1

private theorem Binds.text_eq (h : Binds calls n id text s) : s.text = text := by
  obtain ⟨-, -, names, -, hof⟩ := h
  exact (Symbol.grows_ofText hof).2

/-- One more definition binds what it says if it is accepted, and it leaves what has been bound before. -/
private theorem binds_append_singleton : Binds (calls ++ [e]) n id text s ↔ Binds calls n id text s ∨
    n = calls.length ∧ e = ((id : Int), text) ∧ ∃ b' names, (built {} calls).Defines (id, text) b' ∧
      Symbol.ofText (built {} calls).names text = (.ok s, names) := by
  unfold Binds
  rcases Nat.lt_trichotomy n calls.length with hn | rfl | hn
  · rw [List.getElem?_append_left hn, List.take_append_of_le_length (Nat.le_of_lt hn)]
    simp [Nat.ne_of_lt hn]
  · rw [List.getElem?_concat_length, List.take_left]
    simp
  · rw [List.getElem?_eq_none (by simp; omega), List.getElem?_eq_none (Nat.le_of_lt hn)]
    simp [Nat.ne_of_gt hn]

/-- What a table under construction knows of the definitions so far, the faulty ones among them. -/
structure Reflects (b : Builder) (calls : List (Int × String)) : Prop where
  isNumbering : b.names.IsNumbering
  symbol_iff : ∀ {id s}, b.symbols[id]? = some s ↔ ∃ n text, Binds calls n id text s
  unique : ∀ {n m id text text' s s'}, Binds calls n id text s → Binds calls m id text' s' → n = m
  numbers : ∀ {n id text f}, Binds calls n id text (.flag f) → ∃ named, b.names.Numbers f named
  exists_code : ∀ {n id text s}, Binds calls n id text s → s.isOrdinary = true → ∃ id', b.codes[text]? = some id'
  code : ∀ {text id}, b.codes[text]? = some id → ∃ n s, Binds calls n id text s ∧ s.isOrdinary = true ∧
    ∀ m id' s', Binds calls m id' text s' → n ≤ m

private theorem reflects_start : Reflects {} [] where
  isNumbering := FlagNames.isNumbering_start
  symbol_iff := by simp [Binds]
  unique h := by simp [Binds] at h
  numbers h := by simp [Binds] at h
  exists_code h := by simp [Binds] at h
  code h := by simp at h

private theorem grows_define (b : Builder) (code : Int) (text : String) :
    b.names.Grows (b.define code text).2.names := by
  have hgrows := (b.names.grows_read text).1
  rw [← Symbol.snd_ofText] at hgrows
  unfold define
  split
  · exact .refl _
  split
  · exact .refl _
  split <;> (rename_i hof; rw [hof] at hgrows; exact hgrows)

private theorem Reflects.define_error (h : (built {} calls).Reflects calls)
    (he : (built {} calls).define e.1 e.2 = (.error fault, b')) : b'.Reflects (calls ++ [e]) := by
  have hgrows := (built {} calls).grows_define e.1 e.2
  obtain ⟨hsymbols, hcodes⟩ := Builder.define_error he
  rw [he] at hgrows
  have hbinds : ∀ {n id text s}, Binds (calls ++ [e]) n id text s ↔ Binds calls n id text s := by
    intro n id text s
    rw [binds_append_singleton, or_iff_left]
    rintro ⟨-, rfl, b', names, hd, -⟩
    cases he.symm.trans hd
  refine ⟨hgrows.isNumbering h.isNumbering, ?_, ?_, ?_, ?_, ?_⟩
  · simp only [hsymbols, hbinds]
    exact h.symbol_iff
  · simp only [hbinds]
    exact h.unique
  · simp only [hbinds]
    intro n id text f hf
    obtain ⟨named, hnumbers⟩ := h.numbers hf
    exact ⟨named, hnumbers.mono hgrows⟩
  · simp only [hcodes, hbinds]
    exact h.exists_code
  · simp only [hcodes, hbinds]
    exact h.code

private theorem Binds.isOrdinary_iff (h : Binds calls n id text s) : IsOrdinaryText text ↔ s.isOrdinary = true := by
  obtain ⟨-, -, names, -, hof⟩ := h
  exact isOrdinaryText_iff hof

/-- What one more accepted definition binds, beside what has been bound before. -/
private theorem Defines.binds_iff {code : Int} {word : String} (hd : (built {} calls).Defines (code, word) b') :
    ∃ id s names, id ∉ (built {} calls).symbols ∧ Symbol.ofText (built {} calls).names word = (.ok s, names) ∧
      b' = { built {} calls with names }.bind id s ∧ ∀ {n k text s'}, Binds (calls ++ [(code, word)]) n k text s' ↔
        Binds calls n k text s' ∨ n = calls.length ∧ k = id ∧ text = word ∧ s' = s := by
  obtain ⟨id, s, names, hw, hid, hof, rfl⟩ := define_eq_ok.1 hd
  obtain rfl : code = id := (word32?_eq_some.1 hw).1
  refine ⟨id, s, names, hid, hof, rfl, ?_⟩
  intro n k text s'
  rw [binds_append_singleton]
  refine or_congr_right (and_congr_right fun _ => ⟨?_, ?_⟩)
  · rintro ⟨he, b', names', -, hof'⟩
    cases he
    cases hof.symm.trans hof'
    exact ⟨rfl, rfl, rfl⟩
  · rintro ⟨rfl, rfl, rfl⟩
    exact ⟨rfl, _, names, hd, hof⟩

/-- Nothing is bound to a number that is free. -/
private theorem Reflects.not_binds (h : b.Reflects calls) (hid : id ∉ b.symbols) : ¬ Binds calls n id text s := by
  intro hb
  have hs := h.symbol_iff.2 ⟨n, text, hb⟩
  exact hid (Std.ExtTreeMap.mem_iff_isSome_getElem?.2 (Option.isSome_of_eq_some hs))

/-- A text without a number has been bound by no definition, if it is the text of a character or a tag. -/
private theorem Reflects.not_binds_of_code (h : b.Reflects calls) (hcode : b.codes[text]? = none)
    (hordinary : IsOrdinaryText text) : ¬ Binds calls n id text s := by
  intro hb
  obtain ⟨id', hid'⟩ := h.exists_code hb (hb.isOrdinary_iff.1 hordinary)
  cases hcode.symm.trans hid'

private theorem Reflects.define_ok (h : (built {} calls).Reflects calls) (hd : (built {} calls).Defines e b') :
    b'.Reflects (calls ++ [e]) := by
  obtain ⟨code, word⟩ := e
  obtain ⟨id, s, names, hid, hof, rfl, hbinds⟩ := hd.binds_iff
  obtain ⟨hgrows, htext⟩ := Symbol.grows_ofText hof
  refine ⟨hgrows.isNumbering h.isNumbering, ?_, ?_, ?_, ?_, ?_⟩
  · intro k s'
    rw [getElem?_symbols_bind]
    simp only [hbinds]
    by_cases hk : id = k
    · subst hk
      rw [if_pos rfl, Option.some.injEq]
      constructor
      · rintro rfl
        exact ⟨calls.length, word, .inr ⟨rfl, rfl, rfl, rfl⟩⟩
      · rintro ⟨n, text, hb | ⟨-, -, -, rfl⟩⟩
        · exact absurd hb (h.not_binds hid)
        · rfl
    · simp only [if_neg hk, Ne.symm hk, false_and, and_false, or_false]
      exact h.symbol_iff
  · simp only [hbinds]
    rintro n m k text text' s₁ s₂ (hb | ⟨hn, hk, -⟩) (hb' | ⟨hm, hk', -⟩)
    · exact h.unique hb hb'
    · exact absurd (hk' ▸ hb) (h.not_binds hid)
    · exact absurd (hk ▸ hb') (h.not_binds hid)
    · exact hn.trans hm.symm
  · simp only [hbinds]
    rintro n k text f (hb | ⟨-, -, -, rfl⟩)
    · obtain ⟨named, hnumbers⟩ := h.numbers hb
      exact ⟨named, hnumbers.mono hgrows⟩
    · obtain ⟨named, hnumbers⟩ := Symbol.numbers_of_ofText hof
      exact ⟨named, hnumbers⟩
  · simp only [hbinds, getElem?_codes_bind]
    rintro n k text s' hb hs
    split
    · exact ⟨id, rfl⟩
    · rename_i hold
      rcases hb with hb | ⟨-, -, rfl, rfl⟩
      · exact h.exists_code hb hs
      · rw [not_and, not_and] at hold
        exact Option.ne_none_iff_exists'.1 (hold hs htext)
  · simp only [hbinds, getElem?_codes_bind]
    intro text k hk
    split at hk
    · rename_i hnew
      cases hk
      obtain ⟨hs, rfl, hnone⟩ := hnew
      refine ⟨calls.length, s, .inr ⟨rfl, rfl, htext, rfl⟩, hs, ?_⟩
      rintro m k' s' (hb | ⟨rfl, -⟩)
      · exact absurd hb (h.not_binds_of_code hnone (htext ▸ (isOrdinaryText_iff hof).2 hs))
      · exact Nat.le_refl _
    · obtain ⟨n, s', hb, hs, hfirst⟩ := h.code hk
      refine ⟨n, s', .inl hb, hs, ?_⟩
      rintro m k' s'' (hb' | ⟨rfl, -⟩)
      · exact hfirst m k' s'' hb'
      · exact Nat.le_of_lt hb.lt_length

private theorem reflects_built (calls : List (Int × String)) : (built {} calls).Reflects calls := by
  induction calls using List.reverseRecOn with
  | nil => exact reflects_start
  | append_singleton calls e ih =>
    rw [built_append_singleton]
    rcases hd : (built {} calls).define e.1 e.2 with ⟨_ | _, b'⟩
    · exact ih.define_error hd
    · exact ih.define_ok hd

/-- A text has the number that the earliest definition with it binds. -/
private theorem Reflects.code_iff (h : b.Reflects calls) : b.codes[text]? = some id ↔ ∃ n s, Binds calls n id text s ∧
    s.isOrdinary = true ∧ ∀ m id' s', Binds calls m id' text s' → n ≤ m := by
  constructor
  · exact h.code
  · rintro ⟨n, s, hb, hs, hfirst⟩
    obtain ⟨id', hid'⟩ := h.exists_code hb hs
    obtain ⟨m, s', hb', -, hfirst'⟩ := h.code hid'
    obtain rfl : n = m := Nat.le_antisymm (hfirst m id' s' hb') (hfirst' n id s hb)
    cases hb.1.symm.trans hb'.1
    exact hid'

end Builder

/-! ### Finished tables -/

open Builder

variable {t : SymbolTable} {keep keep' : Symbol → Bool} {calls : List (Int × String)}

private theorem mem_entries {e : Nat × Symbol} : e ∈ t.entries keep ↔ t.symbols[e.1]? = some e.2 ∧ keep e.2 = true := by
  rw [entries, List.mem_filter, Std.ExtTreeMap.mem_toList_iff_getElem?_eq_some]

private theorem pairwise_entries (t : SymbolTable) (keep : Symbol → Bool) :
    (t.entries keep).Pairwise fun e e' => e.1 < e'.1 :=
  List.Pairwise.filter _ (Std.ExtTreeMap.ordered_keys_toList.imp Nat.compare_eq_lt.1)

private theorem disjoint_entries (h : ∀ s, keep s = true → keep' s = false) :
    (t.entries keep).Disjoint (t.entries keep') := by
  intro e he he'
  cases (h _ (mem_entries.1 he).2).symm.trans (mem_entries.1 he').2

/-- The table holds what these definitions bind, as far as they are accepted: a number has the symbol of its one
definition, and a text the number of the first definition with it. -/
structure BoundBy (t : SymbolTable) (calls : List (Int × String)) : Prop where
  symbol_iff : ∀ (id : Nat) (s : Symbol), t.symbols[id]? = some s ↔ ∃ n text, Binds calls n id text s
  unique : ∀ n m id text text' s s', Binds calls n id text s → Binds calls m id text' s' → n = m
  text_eq : ∀ n id text s, Binds calls n id text s → s.text = text
  code?_iff : ∀ text id, t.code? text = some id ↔ ∃ n s, Binds calls n id text s ∧ s.isOrdinary = true ∧
    ∀ m id' s', Binds calls m id' text s' → n ≤ m

/-- The parts of a table agree with each other. -/
structure IsConsistent (t : SymbolTable) : Prop where
  exists_code?_iff : ∀ text, (∃ id, t.code? text = some id) ↔
    ∃ (id : Nat) (s : Symbol), t.symbols[id]? = some s ∧ (s.isGrapheme = true ∨ s.isMultichar = true) ∧ s.text = text
  not_found : ∀ (id : Nat) (s : Symbol), t.symbols[id]? = some s → (s.isFlag = true ∨ s.isSentinel = true) →
    t.code? s.text = none ∧ ∀ text, t.code? text ≠ some id
  length_grapheme : ∀ (id : Nat) (s : Symbol), t.symbols[id]? = some s → s.isGrapheme = true → s.text.length = 1
  length_multichar : ∀ (id : Nat) (s : Symbol), t.symbols[id]? = some s → s.isMultichar = true → 2 ≤ s.text.length
  mem_alphabet : ∀ e, e ∈ t.alphabet ↔ t.symbols[e.1]? = some e.2 ∧ e.2.isSentinel = false
  parts : ∀ e, e ∈ t.alphabet ↔ e ∈ t.graphemes ∨ e ∈ t.multichars ∨ e ∈ t.flags
  disjoint : t.graphemes.Disjoint t.multichars ∧ t.graphemes.Disjoint t.flags ∧ t.multichars.Disjoint t.flags
  ascending : ∀ es ∈ [t.alphabet, t.graphemes, t.multichars, t.flags], es.Pairwise fun e e' => e.1 < e'.1
  feature_lt : ∀ (id : Nat) (f : Flag), t.symbols[id]? = some (.flag f) → f.feature < t.featureCount

theorem boundBy_tableOf (calls : List (Int × String)) : (tableOf calls).BoundBy calls where
  symbol_iff _ _ := (reflects_built calls).symbol_iff
  unique _ _ _ _ _ _ _ := (reflects_built calls).unique
  text_eq _ _ _ _ := Binds.text_eq
  code?_iff _ _ := (reflects_built calls).code_iff

private theorem BoundBy.not_found (h : t.BoundBy calls) {id : Nat} {s : Symbol} (hs : t.symbols[id]? = some s)
    (hordinary : s.isOrdinary = false) : t.code? s.text = none ∧ ∀ text, t.code? text ≠ some id := by
  obtain ⟨n, text, hb⟩ := (h.symbol_iff id s).1 hs
  obtain rfl := h.text_eq _ _ _ _ hb
  have hnot : ¬ IsOrdinaryText s.text := by
    rw [hb.isOrdinary_iff, hordinary]
    exact Bool.false_ne_true
  constructor
  · rw [Option.eq_none_iff_forall_ne_some]
    intro id' hid'
    obtain ⟨m, s', hb', hs', -⟩ := (h.code?_iff _ _).1 hid'
    exact hnot (hb'.isOrdinary_iff.2 hs')
  · intro text hid
    obtain ⟨m, s', hb', hs', -⟩ := (h.code?_iff _ _).1 hid
    cases hs.symm.trans ((h.symbol_iff id s').2 ⟨m, text, hb'⟩)
    cases hordinary.symm.trans hs'

/-- Whatever definitions are made, the finished table holds what the accepted ones bind, and its parts agree. -/
theorem tableOf_consistent (calls : List (Int × String)) :
    (tableOf calls).BoundBy calls ∧ (tableOf calls).IsConsistent := by
  have h := reflects_built calls
  have hbound := boundBy_tableOf calls
  refine ⟨hbound, ?_, ?_, ?_, ?_, ?_, ?_, ?_, ?_, ?_⟩
  · intro text
    simp only [← Symbol.isOrdinary_iff]
    constructor
    · rintro ⟨id, hid⟩
      obtain ⟨n, s, hb, hs, -⟩ := (hbound.code?_iff text id).1 hid
      exact ⟨id, s, (hbound.symbol_iff id s).2 ⟨n, text, hb⟩, hs, hb.text_eq⟩
    · rintro ⟨id, s, hsymbol, hs, rfl⟩
      obtain ⟨n, text, hb⟩ := (hbound.symbol_iff id s).1 hsymbol
      obtain ⟨id', hid'⟩ := h.exists_code hb hs
      exact ⟨id', hb.text_eq ▸ hid'⟩
  · exact fun id s hs hkind => hbound.not_found hs (Symbol.isOrdinary_eq_false hkind)
  · intro id s hs hgrapheme
    cases s with
    | grapheme c => exact String.length_singleton ..
    | epsilon | unknown | identity | multichar | flag => cases hgrapheme
  · intro id s hs hmultichar
    obtain ⟨n, text, -, b', names, -, hof⟩ := (hbound.symbol_iff id s).1 hs
    exact Symbol.two_le_length_of_isMultichar hof hmultichar
  · intro e
    rw [alphabet, mem_entries, Bool.not_eq_true']
  · intro e
    simp only [alphabet, graphemes, multichars, flags, mem_entries, ← and_or_left, Bool.not_eq_true',
      Symbol.isSentinel_eq_false_iff]
  · refine ⟨disjoint_entries fun s hs => ?_, disjoint_entries fun s hs => ?_, disjoint_entries fun s hs => ?_⟩
    · exact (Symbol.kind_of_isGrapheme hs).1
    · exact (Symbol.kind_of_isGrapheme hs).2
    · exact Symbol.kind_of_isMultichar hs
  · intro es hes
    simp only [List.mem_cons, List.not_mem_nil, or_false] at hes
    rcases hes with rfl | rfl | rfl | rfl <;> exact pairwise_entries _ _
  · intro id f hf
    obtain ⟨n, text, hb⟩ := (hbound.symbol_iff id _).1 hf
    obtain ⟨named, hnumbers⟩ := h.numbers hb
    exact hnumbers.lt_featureCount h.isNumbering

example : (tableOf [(3, "a"), (3, "b"), (4, "@P.x@"), (7, "a")]).code? "a" = some 3 := by decide +kernel

end SymbolTable

end LexicalTransducer
