import LexicalTransducer.Flag.Numbering

/-!
# Numbers tell names apart

A numbering that has grown one name at a time gives different names different numbers, counts them without a gap and
never goes beyond its last number (`NameMap.IsNumbering`), and no name ever changes its number.  Both hold whatever
comes of a flag text (`FlagNames.grows_read`), so the numbers of a flag stand for its names as long as the reading
goes on (`FlagNames.Numbers.mono`).
-/

namespace LexicalTransducer

/-! ### One kind of names -/

namespace NameMap

/-- Different names have different numbers, counted from `first` on and none beyond `last`. -/
structure IsNumbering (names : NameMap) (first last : Nat) : Prop where
  injective : ∀ {name name' : String} {k : Nat}, names[name]? = some k → names[name']? = some k → name = name'
  range : ∀ {name : String} {k : Nat}, names[name]? = some k → first ≤ k ∧ k < first + names.size
  size_le : first + names.size ≤ last + 1

/-- Names keep their numbers. -/
def Extends (names names' : NameMap) : Prop :=
  ∀ (name : String) (k : Nat), names[name]? = some k → names'[name]? = some k

variable {names names' : NameMap} {name : String} {first last k : Nat}

private theorem isNumbering_empty (h : first ≤ last + 1) : IsNumbering ∅ first last where
  injective h := by simp at h
  range h := by simp at h
  size_le := by simpa using h

theorem number?_eq_some : names.number? name first last = some (k, names') ↔
    names[name]? = some k ∧ names' = names ∨
      names[name]? = none ∧ k = first + names.size ∧ k ≤ last ∧ names' = names.insert name k := by
  unfold number?
  cases hk : names[name]? with
  | some k' => simp [eq_comm]
  | none =>
    by_cases hle : first + names.size ≤ last
    · simp only [hle, ↓reduceIte]
      constructor
      · intro h
        cases h
        exact .inr ⟨trivial, rfl, hle, rfl⟩
      · rintro (⟨h, -⟩ | ⟨-, rfl, -, rfl⟩)
        · cases h
        · rfl
    · simp only [hle, ↓reduceIte, reduceCtorEq, false_and, false_or, false_iff, not_and]
      rintro - rfl hle'
      exact absurd hle' hle

theorem number?_eq_none : names.number? name first last = none ↔ name ∉ names ∧ last < first + names.size := by
  unfold number?
  rw [Std.ExtTreeMap.mem_iff_isSome_getElem?]
  cases names[name]? with
  | some k => simp
  | none => simp

private theorem getElem?_insert_name (other : String) :
    (names.insert name k)[other]? = if name = other then some k else names[other]? := by
  rw [Std.ExtTreeMap.getElem?_insert]
  simp only [Std.LawfulEqCmp.compare_eq_iff_eq]

/-- A name that is looked up has its number from then on, and the others keep theirs. -/
theorem extends_number? (h : names.number? name first last = some (k, names')) :
    names.Extends names' ∧ names'[name]? = some k := by
  rcases number?_eq_some.1 h with ⟨hk, rfl⟩ | ⟨hnone, -, -, rfl⟩
  · exact ⟨fun _ _ => id, hk⟩
  · refine ⟨fun other j hj => ?_, by rw [getElem?_insert_name, if_pos rfl]⟩
    have hne : name ≠ other := by
      rintro rfl
      rw [hnone] at hj
      cases hj
    rw [getElem?_insert_name, if_neg hne]
    exact hj

/-- The next free number is that of no name so far. -/
private theorem IsNumbering.number? (hn : names.IsNumbering first last)
    (h : names.number? name first last = some (k, names')) : names'.IsNumbering first last := by
  rcases number?_eq_some.1 h with ⟨-, rfl⟩ | ⟨hnone, rfl, hle, rfl⟩
  · exact hn
  · have hsize : (names.insert name (first + names.size)).size = names.size + 1 := by
      have hnot : name ∉ names := by
        rw [Std.ExtTreeMap.mem_iff_isSome_getElem?, hnone]
        exact Bool.false_ne_true
      rw [Std.ExtTreeMap.size_insert]
      exact if_neg hnot
    have hfree : ∀ {other : String}, names[other]? ≠ some (first + names.size) := by
      intro other ho
      have := (hn.range ho).2
      omega
    constructor
    · intro other other' j hj hj'
      rw [getElem?_insert_name] at hj hj'
      by_cases ho : name = other
      · rw [if_pos ho] at hj
        cases hj
        by_cases ho' : name = other'
        · exact ho.symm.trans ho'
        · rw [if_neg ho'] at hj'
          exact absurd hj' hfree
      · rw [if_neg ho] at hj
        by_cases ho' : name = other'
        · rw [if_pos ho'] at hj'
          cases hj'
          exact absurd hj hfree
        · rw [if_neg ho'] at hj'
          exact hn.injective hj hj'
    · intro other j hj
      rw [getElem?_insert_name] at hj
      rw [hsize]
      by_cases ho : name = other
      · rw [if_pos ho] at hj
        cases hj
        omega
      · rw [if_neg ho] at hj
        have := hn.range hj
        omega
    · rw [hsize]
      omega

end NameMap

/-! ### Features and values -/

namespace FlagNames

structure IsNumbering (names : FlagNames) : Prop where
  features : names.features.IsNumbering 0 lastFeature
  values : names.values.IsNumbering 1 lastValue

/-- What a numbering becomes: names keep their numbers, and numbers still tell names apart. -/
structure Grows (names names' : FlagNames) : Prop where
  features : names.features.Extends names'.features
  values : names.values.Extends names'.values
  isNumbering : names.IsNumbering → names'.IsNumbering

/-- The number of a value, or of no value. -/
def Denotes (names : FlagNames) (n : Nat) : Option String → Prop
  | none => n = unset
  | some v => names.values[v]? = some n

/-- The flag says in numbers what the other one says in names. -/
structure Numbers (names : FlagNames) (f : Flag) (named : NamedFlag) : Prop where
  op : f.op = named.op
  feature : names.features[named.feature]? = some f.feature
  value : names.Denotes f.value named.value

variable {names names' names'' : FlagNames} {flag named : NamedFlag} {f : Flag} {text : String} {n m : Nat}
  {value value' : Option String}

theorem lastValue_pos : 0 < lastValue :=
  Nat.zero_lt_succ _

theorem isNumbering_start : IsNumbering {} :=
  ⟨NameMap.isNumbering_empty (Nat.zero_le _), NameMap.isNumbering_empty (by decide)⟩

theorem Grows.refl (names : FlagNames) : names.Grows names :=
  ⟨fun _ _ => id, fun _ _ => id, id⟩

theorem Grows.trans (h : names.Grows names') (h' : names'.Grows names'') : names.Grows names'' where
  features name k hk := h'.features name k (h.features name k hk)
  values name k hk := h'.values name k (h.values name k hk)
  isNumbering hn := h'.isNumbering (h.isNumbering hn)

theorem Denotes.mono (h : names.Denotes n value) (hg : names.Grows names') : names'.Denotes n value := by
  cases value with
  | none => exact h
  | some v => exact hg.values v n h

theorem Numbers.mono (h : names.Numbers f named) (hg : names.Grows names') : names'.Numbers f named :=
  ⟨h.op, hg.features _ _ h.feature, h.value.mono hg⟩

/-- No value has the number that is kept for "unset". -/
private theorem not_denotes_unset (h : names.IsNumbering) {v : String} : ¬ names.Denotes unset (some v) := by
  intro hv
  have := (h.values.range hv).1
  cases this

theorem Denotes.eq_iff (h : names.IsNumbering) (hn : names.Denotes n value) (hm : names.Denotes m value') :
    n = m ↔ value = value' := by
  constructor
  · rintro rfl
    cases value with
    | none =>
      cases value' with
      | none => rfl
      | some v =>
        cases hn
        exact absurd hm (not_denotes_unset h)
    | some v =>
      cases value' with
      | none =>
        cases hm
        exact absurd hn (not_denotes_unset h)
      | some v' => exact congrArg some (h.values.injective hn hm)
  · rintro rfl
    cases value with
    | none => exact Eq.trans hn (Eq.symm hm)
    | some v => exact Option.some.inj (Eq.trans (Eq.symm hn) hm)

theorem Denotes.le_lastValue (h : names.IsNumbering) (hn : names.Denotes n value) : n ≤ lastValue := by
  cases value with
  | none =>
    cases hn
    exact Nat.zero_le _
  | some v =>
    have hlt := (h.values.range hn).2
    have hle := h.values.size_le
    omega

private theorem grows_numberFeature {name : String} {k : Nat} {fs : NameMap}
    (h : names.features.number? name 0 lastFeature = some (k, fs)) : names.Grows { names with features := fs } :=
  ⟨(NameMap.extends_number? h).1, fun _ _ => id, fun hn => ⟨hn.features.number? h, hn.values⟩⟩

private theorem grows_numberValue? (h : names.numberValue? value = some (n, names')) :
    names.Grows names' ∧ names'.Denotes n value := by
  cases value with
  | none =>
    cases h
    exact ⟨.refl _, rfl⟩
  | some v =>
    obtain ⟨⟨k, vs⟩, hk, he⟩ := Option.map_eq_some_iff.1 h
    cases he
    obtain ⟨hext, hv⟩ := NameMap.extends_number? hk
    exact ⟨⟨fun _ _ => id, hext, fun hn => ⟨hn.features, hn.values.number? hk⟩⟩, hv⟩

/-- What numbering a flag does, whether it finds numbers for all names or not. -/
private theorem grows_number (names : FlagNames) (flag : NamedFlag) (text : String) :
    names.Grows (names.number flag text).2 ∧
      ∀ f, (names.number flag text).1 = .ok f → (names.number flag text).2.Numbers f flag ∧ f.text = text := by
  unfold number
  cases hf : names.features.number? flag.feature 0 lastFeature with
  | none => exact ⟨.refl _, fun f h => by cases h⟩
  | some entry =>
    obtain ⟨k, fs⟩ := entry
    have hgrows := grows_numberFeature hf
    cases hv : { names with features := fs }.numberValue? flag.value with
    | none =>
      simp only [hv]
      -- a flag that finds no number for its value leaves the number of its feature behind
      exact ⟨hgrows, fun f h => by cases h⟩
    | some entry =>
      obtain ⟨n, names'⟩ := entry
      obtain ⟨hgrows', hdenotes⟩ := grows_numberValue? hv
      simp only [hv]
      refine ⟨hgrows.trans hgrows', fun f h => ?_⟩
      cases h
      exact ⟨⟨rfl, hgrows'.features _ _ (NameMap.extends_number? hf).2, hdenotes⟩, rfl⟩

/-- What reading a text does, whether it is a flag or not. -/
theorem grows_read (names : FlagNames) (text : String) : names.Grows (names.read text).2 ∧
    ∀ f, (names.read text).1 = .ok f → ∃ named, NamedFlag.ofText text = .ok named ∧
      (names.read text).2.Numbers f named ∧ f.text = text := by
  unfold read
  cases hnamed : NamedFlag.ofText text with
  | error e => exact ⟨.refl _, fun f h => by cases h⟩
  | ok named =>
    obtain ⟨hgrows, hnumbers⟩ := names.grows_number named text
    exact ⟨hgrows, fun f h => ⟨named, rfl, hnumbers f h⟩⟩

end FlagNames

end LexicalTransducer
