import LexicalTransducer.Proofs.Flag.WrittenForm
import LexicalTransducer.Proofs.Steps
import LexicalTransducer.Proofs.Symbol.Names
import LexicalTransducer.Proofs.Symbol.Spelling
import Mathlib.Data.List.Induction
import Mathlib.Data.List.Nodup

/-!
# Which definitions make an alphabet

A table can be built from a row of codes and texts exactly if the codes are different 32-bit words, every text names
a symbol, and the flags among the texts have no more names than there are numbers (`exists_steps_defines_iff`).
-/

namespace LexicalTransducer

/-! ### Texts of symbols -/

/-- A text that names a symbol other than a flag: a sentinel, a character, or a longer text that does not stand
between at signs. -/
inductive IsPlainText (text : String) : Prop
  | sentinel (h : text = Symbol.epsilonText ∨ text = Symbol.unknownText ∨ text = Symbol.identityText)
  | grapheme (c : Char) (h : text.toList = [c])
  | multichar (hl : 2 ≤ text.toList.length)
      (hat : ¬ (text.toList.head? = some '@' ∧ text.toList.getLast? = some '@'))

namespace NamedFlag

/-- A flag stands between at signs, and a dot follows its letter. -/
private theorem toList_of_ofText {text : String} {f : NamedFlag} (h : ofText text = .ok f) :
    ∃ letter names, text.toList = '@' :: letter :: '.' :: names ++ ['@'] := by
  obtain ⟨-, rfl⟩ := ofText_eq_ok.1 h
  exact ⟨_, _, f.toList_text⟩

private theorem not_isPlainText {text : String} {f : NamedFlag} (h : ofText text = .ok f) : ¬ IsPlainText text := by
  obtain ⟨letter, names, ht⟩ := toList_of_ofText h
  intro hp
  cases hp with
  | sentinel hs =>
    -- the third character of a sentinel is no dot
    have hdot : text.toList[2]? = some '.' := by rw [ht]; rfl
    rcases hs with rfl | rfl | rfl
    · exact absurd hdot (by decide +kernel)
    · exact absurd hdot (by decide +kernel)
    · exact absurd hdot (by decide +kernel)
  | grapheme c hc =>
    rw [hc] at ht
    simp at ht
  | multichar hl hat =>
    apply hat
    rw [ht]
    exact ⟨rfl, List.getLast?_concat ..⟩

end NamedFlag

namespace Symbol

variable {names : FlagNames} {text : String}

/-- A plain text takes no numbers. -/
private theorem ofText_of_isPlainText (names : FlagNames) (h : IsPlainText text) :
    ∃ s, ofText names text = (.ok s, names) := by
  unfold ofText
  by_cases h1 : text = epsilonText
  · exact ⟨epsilon, if_pos h1⟩
  by_cases h2 : text = unknownText
  · exact ⟨unknown, by rw [if_neg h1, if_pos h2]⟩
  by_cases h3 : text = identityText
  · exact ⟨identity, by rw [if_neg h1, if_neg h2, if_pos h3]⟩
  rw [if_neg h1, if_neg h2, if_neg h3]
  cases h with
  | sentinel hs => exact absurd hs (by simp [h1, h2, h3])
  | grapheme c hc =>
    rw [hc]
    exact ⟨.grapheme c, rfl⟩
  | multichar hl hat =>
    split
    · rename_i hc
      rw [hc] at hl
      cases hl
    · rename_i c hc
      rw [hc] at hl
      simp at hl
    · refine ⟨.multichar text, if_neg ?_⟩
      simpa [isBetweenAts] using hat

/-- A flag takes numbers for its names, and finding none is a fault of the flag. -/
theorem ofText_of_flag {f : NamedFlag} (names : FlagNames) (h : NamedFlag.ofText text = .ok f) :
    ofText names text = match names.number f text with
      | (.ok fl, names') => (.ok (.flag fl), names')
      | (.error _, names') => (.error .invalidFlag, names') := by
  have hsentinel : ¬ (text = epsilonText ∨ text = unknownText ∨ text = identityText) :=
    fun hs => NamedFlag.not_isPlainText h (.sentinel hs)
  rw [not_or, not_or] at hsentinel
  obtain ⟨letter, rest, ht⟩ := NamedFlag.toList_of_ofText h
  have hbetween : isBetweenAts text.toList = true := by
    rw [ht, isBetweenAts, List.getLast?_concat]
    rfl
  unfold ofText
  rw [if_neg hsentinel.1, if_neg hsentinel.2.1, if_neg hsentinel.2.2]
  split
  · rename_i hc
    rw [ht] at hc
    cases hc
  · rename_i c hc
    rw [ht] at hc
    simp at hc
  · rw [if_pos hbetween, FlagNames.read, h]
    rcases hn : names.number f text with ⟨fault | fl, names₁⟩
    · obtain ⟨rfl, -⟩ := FlagNames.number_eq_error.1 hn
      simp only [hn]
    · simp only [hn]

/-- A text does to the numbers what it would do as a flag. -/
theorem snd_ofText (names : FlagNames) (text : String) : (ofText names text).2 = (names.read text).2 := by
  cases h : NamedFlag.ofText text with
  | ok f =>
    rw [ofText_of_flag names h, FlagNames.read, h]
    rcases hn : names.number f text with ⟨fault | fl, names'⟩ <;> simp only [hn]
  | error e =>
    have hread : names.read text = (.error e, names) := by rw [FlagNames.read, h]
    unfold ofText
    rw [hread]
    split
    · rfl
    split
    · rfl
    split
    · rfl
    split
    · rfl
    · rfl
    split
    · cases e <;> rfl
    · rfl

private theorem exists_ofText_iff_of_flag {f : NamedFlag} (h : NamedFlag.ofText text = .ok f) {names' : FlagNames} :
    (∃ s, ofText names text = (.ok s, names')) ↔ ∃ fl, names.number f text = (.ok fl, names') := by
  rw [ofText_of_flag names h]
  rcases names.number f text with ⟨fault | fl, names₁⟩ <;> simp

/-- A text that is neither plain nor a flag names no symbol. -/
private theorem isPlainText_or_flag {s : Symbol} {names' : FlagNames} (h : ofText names text = (.ok s, names')) :
    IsPlainText text ∨ ∃ f, NamedFlag.ofText text = .ok f := by
  unfold ofText at h
  by_cases h1 : text = epsilonText
  · exact .inl (.sentinel (.inl h1))
  by_cases h2 : text = unknownText
  · exact .inl (.sentinel (.inr (.inl h2)))
  by_cases h3 : text = identityText
  · exact .inl (.sentinel (.inr (.inr h3)))
  rw [if_neg h1, if_neg h2, if_neg h3] at h
  split at h
  · cases h
  · rename_i c hc
    exact .inl (.grapheme c hc)
  · rename_i hne hne1
    have hlen : 2 ≤ text.toList.length := by
      match hc : text.toList with
      | [] => exact absurd hc hne
      | [c] => exact absurd hc (hne1 c)
      | c :: d :: cs => simp
    by_cases hat : isBetweenAts text.toList = true
    · rw [if_pos hat, FlagNames.read] at h
      cases hf : NamedFlag.ofText text with
      | ok f => exact .inr ⟨f, rfl⟩
      | error e =>
        rw [hf] at h
        cases e <;> cases h
    · exact .inl (.multichar hlen (by simpa [isBetweenAts] using hat))

end Symbol

/-! ### Alphabets -/

/-- The flag that the text of a definition is, if it is one. -/
def flagOf? (e : Int × String) : Option NamedFlag :=
  (NamedFlag.ofText e.2).toOption

/-- The flags among the texts of some definitions. -/
def flagsOf (entries : List (Int × String)) : List NamedFlag :=
  entries.filterMap flagOf?

def featuresOf (entries : List (Int × String)) : Finset String :=
  ((flagsOf entries).map (·.feature)).toFinset

def valuesOf (entries : List (Int × String)) : Finset String :=
  ((flagsOf entries).filterMap (·.value)).toFinset

/-- Codes and texts that make an alphabet: different 32-bit codes, texts that name symbols, and no more names of
features or of values than there are numbers. -/
structure IsAlphabet (entries : List (Int × String)) : Prop where
  codes : ∀ e ∈ entries, 0 ≤ e.1 ∧ e.1 < Text.wordCount32
  texts : ∀ e ∈ entries, IsPlainText e.2 ∨ ∃ f, NamedFlag.ofText e.2 = .ok f
  nodup : (entries.map (·.1)).Nodup
  features : (featuresOf entries).card ≤ 65535
  values : (valuesOf entries).card ≤ 65535

section
variable {entries : List (Int × String)} {e : Int × String} {f : NamedFlag}

theorem flagOf?_eq_some (h : NamedFlag.ofText e.2 = .ok f) : flagOf? e = some f := by
  rw [flagOf?, h]
  rfl

private theorem flagOf?_eq_none (h : IsPlainText e.2) : flagOf? e = none := by
  cases hf : NamedFlag.ofText e.2 with
  | error fault =>
    rw [flagOf?, hf]
    rfl
  | ok f => exact absurd h (NamedFlag.not_isPlainText hf)

private theorem flagsOf_of_isPlainText (h : IsPlainText e.2) : flagsOf (entries ++ [e]) = flagsOf entries := by
  rw [flagsOf, List.filterMap_append, List.filterMap_cons_none (flagOf?_eq_none h), List.filterMap_nil,
    List.append_nil, flagsOf]

private theorem flagsOf_of_flag (h : NamedFlag.ofText e.2 = .ok f) :
    flagsOf (entries ++ [e]) = flagsOf entries ++ [f] := by
  rw [flagsOf, List.filterMap_append, List.filterMap_cons_some (flagOf?_eq_some h), List.filterMap_nil, flagsOf]

private theorem featuresOf_of_flag (h : NamedFlag.ofText e.2 = .ok f) :
    featuresOf (entries ++ [e]) = insert f.feature (featuresOf entries) := by
  ext name
  simp [featuresOf, flagsOf_of_flag h, eq_comm]

private theorem valuesOf_of_flag (h : NamedFlag.ofText e.2 = .ok f) :
    valuesOf (entries ++ [e]) = FlagNames.valueSet f.value ∪ valuesOf entries := by
  ext name
  rw [valuesOf, flagsOf_of_flag h, List.filterMap_append, List.toFinset_append, Finset.union_comm]
  cases hv : f.value with
  | none => simp [FlagNames.valueSet, valuesOf, hv]
  | some v => simp [FlagNames.valueSet, valuesOf, hv]

theorem IsAlphabet.code_range (h : IsAlphabet entries) (c : Int) (hc : c ∈ entries.map (·.1)) :
    0 ≤ c ∧ c < Text.wordCount32 := by
  obtain ⟨e, he, rfl⟩ := List.mem_map.1 hc
  exact h.codes e he

/-- A row of definitions makes an alphabet only if its first part does. -/
private theorem IsAlphabet.of_append (h : IsAlphabet (entries ++ [e])) : IsAlphabet entries := by
  have hflags : flagsOf entries ⊆ flagsOf (entries ++ [e]) := by
    rw [flagsOf, flagsOf, List.filterMap_append]
    exact List.subset_append_left _ _
  refine ⟨fun e' he => h.codes e' (List.mem_append_left _ he), fun e' he => h.texts e' (List.mem_append_left _ he),
    ?_, ?_, ?_⟩
  · have := h.nodup
    rw [List.map_append] at this
    exact this.of_append_left
  · refine Nat.le_trans (Finset.card_le_card ?_) h.features
    intro name hname
    rw [featuresOf, List.mem_toFinset] at hname ⊢
    exact List.map_subset _ hflags hname
  · refine Nat.le_trans (Finset.card_le_card ?_) h.values
    intro name hname
    rw [valuesOf, List.mem_toFinset] at hname ⊢
    exact List.filterMap_subset _ hflags hname

end

namespace SymbolTable.Builder

def Defines (b : Builder) (e : Int × String) (b' : Builder) : Prop :=
  b.define e.1 e.2 = (.ok (), b')

/-- What a table under construction knows of the definitions it has been built from. -/
structure Records (b : Builder) (entries : List (Int × String)) : Prop where
  symbols : ∀ id : Nat, id ∈ b.symbols ↔ (id : Int) ∈ entries.map (·.1)
  names : b.names.Covers (featuresOf entries) (valuesOf entries)

variable {b b' : Builder} {entries : List (Int × String)} {e : Int × String}

private theorem records_start : Records {} [] :=
  ⟨fun id => by simp, NameMap.covers_empty, NameMap.covers_empty⟩

theorem word32?_eq_some {n : Int} {id : Nat} : Text.word32? n = some id ↔ n = id ∧ n < Text.wordCount32 := by
  unfold Text.word32? Text.wordCount32
  split
  · rw [Option.some.injEq]
    omega
  · simp only [reduceCtorEq, false_iff]
    omega

private theorem records_of_defines (hr : b.Records entries) (hd : b.Defines e b') : b'.Records (entries ++ [e]) := by
  obtain ⟨id, s, names, hw, -, hs, rfl⟩ := define_eq_ok.1 hd
  obtain ⟨hcode, -⟩ := word32?_eq_some.1 hw
  constructor
  · intro k
    show k ∈ b.symbols.insert id s ↔ _
    rw [Std.ExtTreeMap.mem_insert, hr.symbols k, Nat.compare_eq_eq, List.map_append, List.mem_append, List.map_cons,
      List.map_nil, List.mem_singleton, hcode, Int.natCast_inj, or_comm, eq_comm]
  · show names.Covers _ _
    rcases Symbol.isPlainText_or_flag hs with hp | ⟨f, hf⟩
    · obtain ⟨s', hs'⟩ := Symbol.ofText_of_isPlainText b.names hp
      rw [hs] at hs'
      cases hs'
      rw [featuresOf, valuesOf, flagsOf_of_isPlainText hp]
      exact hr.names
    · obtain ⟨fl, hfl⟩ := (Symbol.exists_ofText_iff_of_flag hf).1 ⟨s, hs⟩
      rw [featuresOf_of_flag hf, valuesOf_of_flag hf]
      exact hr.names.number hfl

/-- One more definition is accepted if it makes an alphabet with the ones before it. -/
private theorem exists_defines_iff (hr : b.Records entries) (ha : IsAlphabet entries) :
    (∃ b', b.Defines e b') ↔ IsAlphabet (entries ++ [e]) := by
  have hcodes : ∀ P : Int × String → Prop, (∀ e' ∈ entries, P e') → P e → ∀ e' ∈ entries ++ [e], P e' := by
    intro P h he e' he'
    rcases List.mem_append.1 he' with he' | he'
    · exact h e' he'
    · rw [List.mem_singleton.1 he']
      exact he
  have hnodup : ∀ id : Nat, e.1 = id → (id ∉ b.symbols ↔ ((entries ++ [e]).map (·.1)).Nodup) := by
    intro id hid
    rw [hr.symbols, List.map_append, List.map_cons, List.map_nil, List.nodup_append', ← hid]
    simp [ha.nodup]
  -- the names of all definitions so far use up the numbers, not those of this one alone
  have hcard : ∀ f : NamedFlag, (∃ fl names, b.names.number f e.2 = (.ok fl, names)) ↔
      (insert f.feature (featuresOf entries)).card ≤ 65535 ∧
        (FlagNames.valueSet f.value ∪ valuesOf entries).card ≤ 65535 :=
    fun f => FlagNames.exists_number_iff hr.names ha.features ha.values
  constructor
  · rintro ⟨b', hd⟩
    obtain ⟨id, s, names, hw, hid, hs, -⟩ := define_eq_ok.1 hd
    obtain ⟨hcode, hlt⟩ := word32?_eq_some.1 hw
    have hrange : 0 ≤ e.1 ∧ e.1 < Text.wordCount32 := ⟨by omega, hlt⟩
    have htext := Symbol.isPlainText_or_flag hs
    refine ⟨hcodes _ ha.codes hrange, hcodes _ ha.texts htext, (hnodup id hcode).1 hid, ?_, ?_⟩
    · rcases htext with hp | ⟨f, hf⟩
      · rw [featuresOf, flagsOf_of_isPlainText hp]
        exact ha.features
      · obtain ⟨fl, hfl⟩ := (Symbol.exists_ofText_iff_of_flag hf).1 ⟨s, hs⟩
        rw [featuresOf_of_flag hf]
        exact ((hcard f).1 ⟨fl, names, hfl⟩).1
    · rcases htext with hp | ⟨f, hf⟩
      · rw [valuesOf, flagsOf_of_isPlainText hp]
        exact ha.values
      · obtain ⟨fl, hfl⟩ := (Symbol.exists_ofText_iff_of_flag hf).1 ⟨s, hs⟩
        rw [valuesOf_of_flag hf]
        exact ((hcard f).1 ⟨fl, names, hfl⟩).2
  · intro h
    have he : e ∈ entries ++ [e] := List.mem_append_right _ (List.mem_singleton_self e)
    obtain ⟨hnonneg, hlt⟩ := h.codes e he
    obtain ⟨id, hid⟩ := Int.eq_ofNat_of_zero_le hnonneg
    have hw : Text.word32? e.1 = some id := word32?_eq_some.2 ⟨hid, hlt⟩
    have hfree := (hnodup id hid).2 h.nodup
    rcases h.texts e he with hp | ⟨f, hf⟩
    · obtain ⟨s, hs⟩ := Symbol.ofText_of_isPlainText b.names hp
      exact ⟨_, define_eq_ok.2 ⟨id, s, b.names, hw, hfree, hs, rfl⟩⟩
    · have hfc := h.features
      have hvc := h.values
      rw [featuresOf_of_flag hf] at hfc
      rw [valuesOf_of_flag hf] at hvc
      obtain ⟨fl, names, hfl⟩ := (hcard f).2 ⟨hfc, hvc⟩
      obtain ⟨s, hs⟩ := (Symbol.exists_ofText_iff_of_flag hf).2 ⟨fl, hfl⟩
      exact ⟨_, define_eq_ok.2 ⟨id, s, names, hw, hfree, hs, rfl⟩⟩

theorem records_of_steps (hs : Steps Defines {} entries b) : b.Records entries :=
  hs.accumulate (fun _ _ _ _ => records_of_defines) records_start

/-- A table can be built from definitions that make an alphabet, and from no others. -/
theorem exists_steps_defines_iff : (∃ b, Steps Defines {} entries b) ↔ IsAlphabet entries := by
  -- a definition is accepted by what stands before it, so the induction takes off the last one
  induction entries using List.reverseRecOn with
  | nil =>
    refine ⟨fun _ => ?_, fun _ => ⟨{}, .nil _⟩⟩
    exact ⟨by simp, by simp, List.nodup_nil, Nat.zero_le _, Nat.zero_le _⟩
  | append_singleton entries e ih =>
    constructor
    · rintro ⟨b, hs⟩
      obtain ⟨b₁, hs, hd⟩ := Steps.snoc_iff.1 hs
      exact (exists_defines_iff (records_of_steps hs) (ih.1 ⟨b₁, hs⟩)).1 ⟨b, hd⟩
    · intro h
      obtain ⟨b₁, hs⟩ := ih.2 h.of_append
      obtain ⟨b, hd⟩ := (exists_defines_iff (records_of_steps hs) h.of_append).2 h
      exact ⟨b, Steps.snoc_iff.2 ⟨b₁, hs, hd⟩⟩

end SymbolTable.Builder

end LexicalTransducer
