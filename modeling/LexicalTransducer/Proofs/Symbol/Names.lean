import LexicalTransducer.Symbol.Basic
import Mathlib.Data.Finset.Card

/-!
# How far the numbers go

The names that have numbers are known by the set of them (`Covers`).  A further name finds a number as long as the
set with this name in it is not too large (`exists_number?_iff`), and so do the names of a flag
(`exists_number_iff`).
-/

namespace LexicalTransducer

/-! ### Numbers for names -/

namespace NameMap

/-- The names with a number are those of a set. -/
def Covers (names : NameMap) (s : Finset String) : Prop :=
  ∀ name, name ∈ names ↔ name ∈ s

variable {names names' : NameMap} {s : Finset String} {name : String} {first last k : Nat}

theorem covers_empty : Covers ∅ ∅ := by
  intro name
  simp

theorem Covers.size_eq (h : names.Covers s) : names.size = s.card := by
  have hs : s = names.keys.toFinset := by
    ext name
    rw [List.mem_toFinset, Std.ExtTreeMap.mem_keys, h name]
  rw [hs, List.toFinset_card_of_nodup Std.ExtTreeMap.nodup_keys, Std.ExtTreeMap.length_keys]

private theorem covers_insert (h : names.Covers s) (name : String) (k : Nat) :
    Covers (names.insert name k) (insert name s) := by
  intro other
  rw [Std.ExtTreeMap.mem_insert, Finset.mem_insert, h other, Std.LawfulEqCmp.compare_eq_iff_eq, eq_comm]

private theorem Covers.number? (h : names.Covers s) (hn : names.number? name first last = some (k, names')) :
    names'.Covers (insert name s) := by
  unfold NameMap.number? at hn
  split at hn
  · rename_i k' hk
    cases hn
    have hmem : name ∈ s := by
      rw [← h name, Std.ExtTreeMap.mem_iff_isSome_getElem?, hk]
      rfl
    rw [Finset.insert_eq_of_mem hmem]
    exact h
  · simp only [] at hn
    split at hn
    · cases hn
      exact covers_insert h name _
    · cases hn

/-- There is a number for a name if there are enough numbers for all names and this one. -/
theorem exists_number?_iff (name : String) (h : names.Covers s) (hs : first + s.card ≤ last + 1) :
    (∃ k names', names.number? name first last = some (k, names')) ↔
      first + (insert name s).card ≤ last + 1 := by
  unfold NameMap.number?
  cases hk : names[name]? with
  | some k =>
    have hmem : name ∈ s := by
      rw [← h name, Std.ExtTreeMap.mem_iff_isSome_getElem?, hk]
      rfl
    rw [Finset.insert_eq_of_mem hmem]
    exact ⟨fun _ => hs, fun _ => ⟨k, names, rfl⟩⟩
  | none =>
    have hmem : name ∉ s := by
      rw [← h name, Std.ExtTreeMap.mem_iff_isSome_getElem?, hk]
      exact Bool.false_ne_true
    -- the next free number is behind as many as there are names
    rw [Finset.card_insert_of_notMem hmem, h.size_eq]
    constructor
    · rintro ⟨k, names', hn⟩
      simp only [] at hn
      split at hn
      · omega
      · cases hn
    · intro hle
      exact ⟨first + s.card, _, if_pos (by omega)⟩

end NameMap

/-! ### Numbers for the names of a flag -/

namespace FlagNames

/-- The features and the values with a number are those of two sets. -/
structure Covers (names : FlagNames) (features values : Finset String) : Prop where
  features : names.features.Covers features
  values : names.values.Covers values

/-- As many names as there are numbers. -/
def nameCount : Nat := 65535

variable {names names' : FlagNames} {features values : Finset String} {flag : NamedFlag} {text : String} {f : Flag}

theorem number_eq_ok : names.number flag text = (.ok f, names') ↔ ∃ k fs v,
    names.features.number? flag.feature 0 lastFeature = some (k, fs) ∧
      { names with features := fs }.numberValue? flag.value = some (v, names') ∧
      f = { op := flag.op, feature := k, value := v, text } := by
  unfold number
  cases hf : names.features.number? flag.feature 0 lastFeature with
  | none => simp
  | some entry =>
    obtain ⟨k, fs⟩ := entry
    cases hv : { names with features := fs }.numberValue? flag.value with
    | none => simp [hv]
    | some entry =>
      obtain ⟨v, names₁⟩ := entry
      simp only [hv, Prod.mk.injEq, Except.ok.injEq, Option.some.injEq]
      constructor
      · rintro ⟨rfl, rfl⟩
        exact ⟨k, fs, v, ⟨rfl, rfl⟩, by rw [hv], rfl⟩
      · rintro ⟨_, _, _, ⟨rfl, rfl⟩, hv', rfl⟩
        rw [hv] at hv'
        cases hv'
        exact ⟨rfl, rfl⟩

/-- A flag that finds no number for its value leaves the number of its feature behind. -/
theorem number_eq_error {fault : FlagFault} : names.number flag text = (.error fault, names') ↔
    fault = .tooManyNames ∧ (names.features.number? flag.feature 0 lastFeature = none ∧ names' = names ∨
      ∃ k fs, names.features.number? flag.feature 0 lastFeature = some (k, fs) ∧
        { names with features := fs }.numberValue? flag.value = none ∧ names' = { names with features := fs }) := by
  unfold number
  cases hf : names.features.number? flag.feature 0 lastFeature with
  | none => simp [eq_comm]
  | some entry =>
    obtain ⟨k, fs⟩ := entry
    cases hv : { names with features := fs }.numberValue? flag.value with
    | none => simp [hv, eq_comm]
    | some entry => simp [hv]

/-- The value of a flag, as a set. -/
def valueSet (value : Option String) : Finset String :=
  value.elim ∅ ({·})

private theorem Covers.numberValue? {value : Option String} {v : Nat} (h : names.Covers features values)
    (hn : names.numberValue? value = some (v, names')) : names'.Covers features (valueSet value ∪ values) := by
  cases value with
  | none =>
    cases hn
    rw [valueSet, Option.elim_none, Finset.empty_union]
    exact h
  | some name =>
    obtain ⟨⟨k, vs⟩, hk, he⟩ := Option.map_eq_some_iff.1 hn
    cases he
    exact ⟨h.features, h.values.number? hk⟩

private theorem exists_numberValue?_iff {value : Option String} (h : names.Covers features values)
    (hv : values.card ≤ nameCount) :
    (∃ v names', names.numberValue? value = some (v, names')) ↔ (valueSet value ∪ values).card ≤ nameCount := by
  cases value with
  | none =>
    rw [valueSet, Option.elim_none, Finset.empty_union]
    exact ⟨fun _ => hv, fun _ => ⟨unset, names, rfl⟩⟩
  | some name =>
    have hcard : 1 + values.card ≤ lastValue + 1 := by
      rw [Nat.add_comm]
      exact Nat.succ_le_succ hv
    have hiff := NameMap.exists_number?_iff name h.values hcard
    rw [Nat.add_comm, Nat.add_le_add_iff_right] at hiff
    rw [valueSet, Option.elim_some, Finset.singleton_union]
    refine Iff.trans ?_ hiff
    simp only [numberValue?, Option.map_eq_some_iff, Prod.exists]
    constructor
    · rintro ⟨v, names', k, vs, hk, -⟩
      exact ⟨k, vs, hk⟩
    · rintro ⟨k, vs, hk⟩
      exact ⟨k, _, k, vs, hk, rfl⟩

private theorem Covers.numberFeature {name : String} {k : Nat} {fs : NameMap} (h : names.Covers features values)
    (hk : names.features.number? name 0 lastFeature = some (k, fs)) :
    Covers { names with features := fs } (insert name features) values :=
  ⟨h.features.number? hk, h.values⟩

theorem Covers.number (h : names.Covers features values) (hn : names.number flag text = (.ok f, names')) :
    names'.Covers (insert flag.feature features) (valueSet flag.value ∪ values) := by
  obtain ⟨k, fs, v, hk, hv, -⟩ := number_eq_ok.1 hn
  exact (h.numberFeature hk).numberValue? hv

/-- A flag can be numbered if there are enough numbers for its names and all that came before. -/
theorem exists_number_iff (h : names.Covers features values) (hf : features.card ≤ nameCount)
    (hv : values.card ≤ nameCount) : (∃ f names', names.number flag text = (.ok f, names')) ↔
      (insert flag.feature features).card ≤ nameCount ∧ (valueSet flag.value ∪ values).card ≤ nameCount := by
  have hcard : 0 + features.card ≤ lastFeature + 1 := by
    rw [Nat.zero_add]
    exact hf
  have hfirst := NameMap.exists_number?_iff flag.feature h.features hcard
  rw [Nat.zero_add] at hfirst
  constructor
  · rintro ⟨f, names', hn⟩
    obtain ⟨k, fs, v, hk, hv', -⟩ := number_eq_ok.1 hn
    exact ⟨hfirst.1 ⟨k, fs, hk⟩, (exists_numberValue?_iff (h.numberFeature hk) hv).1 ⟨v, names', hv'⟩⟩
  · rintro ⟨hfc, hvc⟩
    obtain ⟨k, fs, hk⟩ := hfirst.2 hfc
    obtain ⟨v, names', hv'⟩ := (exists_numberValue?_iff (h.numberFeature hk) hv).2 hvc
    exact ⟨_, names', number_eq_ok.2 ⟨k, fs, v, hk, hv', rfl⟩⟩

end FlagNames

end LexicalTransducer
