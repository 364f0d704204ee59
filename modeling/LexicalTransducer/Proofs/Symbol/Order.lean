import LexicalTransducer.Proofs.Flag.Meaning
import LexicalTransducer.Proofs.Lists
import LexicalTransducer.Proofs.Symbol.Renumbering

/-!
# The order of definitions

A table holds what its definitions say, each by itself (`Builder.Holds`), so definitions in another order make a table
with the same symbols under the same numbers (`agree_of_perm`).  Only the flags are numbered otherwise, and where two
definitions have the text of one character or tag, the earlier one gives the text its number.
-/

namespace LexicalTransducer

namespace Symbol

variable {names names' m m₁ m' m₁' : FlagNames} {text : String} {s s' : Symbol}

/-- A text names a symbol without a look at the numbers, or it is a flag that takes some. -/
theorem ofText_cases (h : ofText names text = (.ok s, names')) :
    (names' = names ∧ s.isFlag = false ∧ s.text = text ∧ ∀ names, ofText names text = (.ok s, names)) ∨
      ∃ f, s = .flag f ∧ names.read text = (.ok f, names') := by
  unfold ofText at h ⊢
  by_cases h1 : text = epsilonText
  · rw [if_pos h1] at h
    cases h
    exact .inl ⟨rfl, rfl, h1.symm, fun names => if_pos h1⟩
  by_cases h2 : text = unknownText
  · rw [if_neg h1, if_pos h2] at h
    cases h
    exact .inl ⟨rfl, rfl, h2.symm, fun names => by rw [if_neg h1, if_pos h2]⟩
  by_cases h3 : text = identityText
  · rw [if_neg h1, if_neg h2, if_pos h3] at h
    cases h
    exact .inl ⟨rfl, rfl, h3.symm, fun names => by rw [if_neg h1, if_neg h2, if_pos h3]⟩
  simp only [if_neg h1, if_neg h2, if_neg h3] at h ⊢
  split at h
  · cases h
  · rename_i c hc
    cases h
    have htext : c.toString = text := by
      rw [← String.ofList_toList (s := text), hc]
      rfl
    exact .inl ⟨rfl, rfl, htext, fun names => rfl⟩
  · split at h
    · split at h
      · rename_i f names₁ hread
        cases h
        exact .inr ⟨f, rfl, hread⟩
      · cases h
      · cases h
      · cases h
      · cases h
    · rename_i hat
      cases h
      exact .inl ⟨rfl, rfl, rfl, fun names => if_neg hat⟩

theorem grows_ofText (h : ofText names text = (.ok s, names')) : names.Grows names' ∧ s.text = text := by
  rcases ofText_cases h with ⟨rfl, -, ht, -⟩ | ⟨f, rfl, hread⟩
  · exact ⟨.refl _, ht⟩
  · obtain ⟨hgrows, hnumbers⟩ := names.grows_read text
    rw [hread] at hgrows hnumbers
    obtain ⟨_, -, -, ht⟩ := hnumbers f rfl
    exact ⟨hgrows, ht⟩

/-- The same symbol, but that a flag may have other numbers for the same names. -/
inductive SameNamed (names names' : FlagNames) : Symbol → Symbol → Prop
  | refl {s : Symbol} (h : s.isFlag = false) : SameNamed names names' s s
  | flag {f f' : Flag} {named : NamedFlag} (hf : names.Numbers f named) (hf' : names'.Numbers f' named)
      (ht : f'.text = f.text) : SameNamed names names' (.flag f) (.flag f')

theorem SameNamed.isOrdinary_eq (h : SameNamed names names' s s') : s'.isOrdinary = s.isOrdinary := by
  cases h <;> rfl

/-- A text names the same symbol whenever it is read. -/
theorem sameNamed_of_ofText (h : ofText m text = (.ok s, m₁)) (h' : ofText m' text = (.ok s', m₁'))
    (hg : m₁.Grows names) (hg' : m₁'.Grows names') : SameNamed names names' s s' := by
  rcases ofText_cases h with ⟨-, hs, -, hall⟩ | ⟨f, rfl, hread⟩
  · cases (hall m').symm.trans h'
    exact .refl hs
  · rcases ofText_cases h' with ⟨-, hs', -, hall'⟩ | ⟨f', rfl, hread'⟩
    · cases (hall' m).symm.trans h
      cases hs'
    · have hnumbers := (m.grows_read text).2
      have hnumbers' := (m'.grows_read text).2
      rw [hread] at hnumbers
      rw [hread'] at hnumbers'
      obtain ⟨named, hnamed, hf, ht⟩ := hnumbers f rfl
      obtain ⟨named', hnamed', hf', ht'⟩ := hnumbers' f' rfl
      cases hnamed.symm.trans hnamed'
      exact .flag (hf.mono hg) (hf'.mono hg') (ht'.trans ht.symm)

end Symbol

/-- The text names a character or a tag. -/
def IsOrdinaryText (text : String) : Prop :=
  ∃ names s names', Symbol.ofText names text = (.ok s, names') ∧ s.isOrdinary = true

/-- No two definitions have the text of one character or tag. -/
def HasDistinctTexts (entries : List (Int × String)) : Prop :=
  entries.Pairwise fun e e' => e.2 = e'.2 → ¬ IsOrdinaryText e.2

private theorem HasDistinctTexts.eq_of_mem {entries : List (Int × String)} (h : HasDistinctTexts entries)
    {code code' : Int} {text : String} (hin : (code, text) ∈ entries) (hin' : (code', text) ∈ entries)
    (hordinary : IsOrdinaryText text) : code = code' := by
  by_contra hne
  have : Std.Symm fun e e' : Int × String => e.2 = e'.2 → ¬ IsOrdinaryText e.2 :=
    ⟨fun e e' he heq => heq ▸ he heq.symm⟩
  exact h.forall hin hin' (fun heq => hne (congrArg Prod.fst heq)) rfl hordinary

namespace SymbolTable

/-- Tables with the same symbols under the same numbers, but that the flags have other numbers for their names. -/
structure Agree (names names' : FlagNames) (t t' : SymbolTable) : Prop where
  isNumbering : names.IsNumbering
  isNumbering' : names'.IsNumbering
  featureCount : t.featureCount = names.featureCount
  featureCount' : t'.featureCount = names'.featureCount
  codes : t'.codes = t.codes
  symbols : ∀ id : Nat, Option.Rel (Symbol.SameNamed names names') t.symbols[id]? t'.symbols[id]?

namespace Builder

/-- What a table holds of the definitions it has been built from, whatever their order is. -/
structure Holds (b : Builder) (entries : List (Int × String)) : Prop where
  isNumbering : b.names.IsNumbering
  symbol : ∀ {id : Nat} {s : Symbol}, b.symbols[id]? = some s → ∃ text m m₁, ((id : Int), text) ∈ entries ∧
    Symbol.ofText m text = (.ok s, m₁) ∧ m₁.Grows b.names
  exists_symbol : ∀ {id : Nat} {text : String}, ((id : Int), text) ∈ entries → ∃ s, b.symbols[id]? = some s
  code : ∀ {text : String} {id : Nat}, b.codes[text]? = some id → ((id : Int), text) ∈ entries ∧ IsOrdinaryText text
  exists_code : ∀ {code : Int} {text : String}, (code, text) ∈ entries → IsOrdinaryText text →
    ∃ id, b.codes[text]? = some id

variable {b b' : Builder} {entries entries' : List (Int × String)} {e : Int × String}

private theorem holds_start : Holds {} [] where
  isNumbering := FlagNames.isNumbering_start
  symbol h := by simp at h
  exists_symbol h := by simp at h
  code h := by simp at h
  exists_code h := by simp at h

private theorem Holds.defines (h : b.Holds entries) (hd : b.Defines e b') : b'.Holds (entries ++ [e]) := by
  obtain ⟨id, s, names, hw, hid, hs, rfl⟩ := define_eq_ok.1 hd
  obtain ⟨hgrows, htext⟩ := Symbol.grows_ofText hs
  have he : e = ((id : Int), e.2) := Prod.ext (word32?_eq_some.1 hw).1 rfl
  have hmem : ((id : Int), e.2) ∈ entries ++ [e] := by
    rw [← he]
    exact List.mem_append_right _ (List.mem_singleton_self e)
  have hlast : ∀ {k : Nat} {text : String}, ((k : Int), text) ∈ [e] → k = id ∧ text = e.2 := by
    intro k text hk
    rw [List.mem_singleton, he, Prod.mk.injEq, Int.natCast_inj] at hk
    exact hk
  refine ⟨hgrows.isNumbering h.isNumbering, ?_, ?_, ?_, ?_⟩
  · intro k s' hk
    rw [getElem?_symbols_bind] at hk
    by_cases hkid : id = k
    · rw [if_pos hkid] at hk
      cases hk
      exact ⟨e.2, b.names, names, hkid ▸ hmem, hs, .refl _⟩
    · rw [if_neg hkid] at hk
      obtain ⟨text, m, m₁, hin, hof, hg⟩ := h.symbol hk
      exact ⟨text, m, m₁, List.mem_append_left _ hin, hof, hg.trans hgrows⟩
  · intro k text hk
    rw [getElem?_symbols_bind]
    by_cases hkid : id = k
    · exact ⟨s, if_pos hkid⟩
    · rw [if_neg hkid]
      rcases List.mem_append.1 hk with hk | hk
      · exact h.exists_symbol hk
      · exact absurd (hlast hk).1.symm hkid
  · intro text k hk
    rw [getElem?_codes_bind] at hk
    split at hk
    · rename_i hnew
      cases hk
      rw [← hnew.2.1, htext]
      exact ⟨hmem, b.names, s, names, hs, hnew.1⟩
    · obtain ⟨hin, hordinary⟩ := h.code hk
      exact ⟨List.mem_append_left _ hin, hordinary⟩
  · intro code text hin hordinary
    rw [getElem?_codes_bind]
    split
    · exact ⟨id, rfl⟩
    · rename_i hold
      rcases List.mem_append.1 hin with hin | hin
      · exact h.exists_code hin hordinary
      · -- the text of this definition has a number already
        rw [List.mem_singleton] at hin
        subst hin
        obtain ⟨m, s₀, m₁, hof, hs₀⟩ := hordinary
        have hsame := Symbol.sameNamed_of_ofText hof hs (.refl _) (.refl _)
        rw [hsame.isOrdinary_eq, not_and, not_and] at hold
        exact Option.ne_none_iff_exists'.1 (hold hs₀ htext)

theorem holds_of_steps (h : Steps Defines {} entries b) : b.Holds entries :=
  h.accumulate (fun _ _ _ _ hb => hb.defines) holds_start

/-- Texts have the same numbers in both tables. -/
private theorem Holds.codes_eq (h : b.Holds entries) (h' : b'.Holds entries') (hp : entries.Perm entries')
    (hdistinct : HasDistinctTexts entries) : b'.codes = b.codes := by
  apply Std.ExtTreeMap.ext_getElem?
  intro text
  cases hk : b.codes[text]? with
  | none =>
    rw [Option.eq_none_iff_forall_ne_some]
    intro id hid
    obtain ⟨hin, hordinary⟩ := h'.code hid
    obtain ⟨id', hid'⟩ := h.exists_code (hp.mem_iff.2 hin) hordinary
    rw [hk] at hid'
    cases hid'
  | some id =>
    obtain ⟨hin, hordinary⟩ := h.code hk
    obtain ⟨id', hid'⟩ := h'.exists_code (hp.mem_iff.1 hin) hordinary
    have heq := hdistinct.eq_of_mem hin (hp.mem_iff.2 (h'.code hid').1) hordinary
    rw [hid', Int.natCast_inj.1 heq]

/-- Numbers have the same symbols in both tables. -/
private theorem Holds.symbols_rel (h : b.Holds entries) (h' : b'.Holds entries') (hp : entries.Perm entries')
    (hnodup : (entries.map (·.1)).Nodup) (id : Nat) :
    Option.Rel (Symbol.SameNamed b.names b'.names) b.symbols[id]? b'.symbols[id]? := by
  cases hs : b.symbols[id]? with
  | none =>
    cases hs' : b'.symbols[id]? with
    | none => exact .none
    | some s' =>
      obtain ⟨text, -, -, hin, -⟩ := h'.symbol hs'
      obtain ⟨s, hs₀⟩ := h.exists_symbol (hp.mem_iff.2 hin)
      rw [hs] at hs₀
      cases hs₀
  | some s =>
    obtain ⟨text, m, m₁, hin, hof, hg⟩ := h.symbol hs
    obtain ⟨s', hs'⟩ := h'.exists_symbol (hp.mem_iff.1 hin)
    rw [hs']
    obtain ⟨text', m', m₁', hin', hof', hg'⟩ := h'.symbol hs'
    obtain rfl := eq_of_mem_of_nodup hnodup hin (hp.mem_iff.2 hin')
    exact .some (Symbol.sameNamed_of_ofText hof hof' hg hg')

/-- Definitions in another order make the same table, but that the flags may be numbered otherwise. -/
theorem agree_of_perm (h : Steps Defines {} entries b) (h' : Steps Defines {} entries' b')
    (hp : entries.Perm entries') (hdistinct : HasDistinctTexts entries) :
    Agree b.names b'.names b.finish b'.finish := by
  have hb := holds_of_steps h
  have hb' := holds_of_steps h'
  have halphabet := exists_steps_defines_iff.1 ⟨b, h⟩
  exact ⟨hb.isNumbering, hb'.isNumbering, rfl, rfl, hb.codes_eq hb' hp hdistinct,
    hb.symbols_rel hb' hp halphabet.nodup⟩

end Builder

end SymbolTable

end LexicalTransducer
