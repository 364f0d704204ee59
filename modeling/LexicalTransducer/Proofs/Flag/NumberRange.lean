import LexicalTransducer.Proofs.Flag.Lossless
import Mathlib.Order.Interval.Finset.Nat
import Mathlib.Order.Interval.Set.Defs

/-!
# Numbers without a gap

The numbers of all names that have been read are counted without a gap: n features have the numbers below n, and m
values have the numbers from one to m (`NameMap.IsNumbering.exists_name`).  Neither goes beyond 65535, so 16-bit words
are enough for them, and the words never wrap (`NameMap.number?_eq_numberInWords?`).  A text finds no number exactly if
it is a flag with a new name and all numbers for such names are taken (`FlagNames.read_eq_tooManyNames`).
-/

namespace LexicalTransducer

namespace NameMap

variable {names : NameMap} {name : String} {first last k : Nat}

/-! ### Numbers in words -/

/-- The number as a 16-bit word, unless it is too large for one. -/
def word? (n : Nat) : Option UInt16 :=
  if n < UInt16.size then some (.ofNat n) else none

/-- The sum of two words, unless it wraps. -/
def checkedAdd? (a b : UInt16) : Option UInt16 :=
  if a.toNat + b.toNat < UInt16.size then some (a + b) else none

/-- The number of a name, worked out in words: the names are counted in one, and the sum must not wrap. -/
def numberInWords? (names : NameMap) (name : String) (first last : UInt16) : Option (Nat × NameMap) :=
  match names[name]? with
  | some k => some (k, names)
  | none =>
    let next := ((word? names.size).bind fun n => checkedAdd? n first).filter (· ≤ last)
    next.map fun k => (k.toNat, names.insert name k.toNat)

private theorem size_word : UInt16.size = 65536 := rfl

private theorem nextWord_eq_some {n : Nat} {first last : UInt16} (h : first.toNat + n ≤ last.toNat) :
    ∃ k : UInt16, ((word? n).bind fun n => checkedAdd? n first).filter (· ≤ last) = some k ∧
      k.toNat = first.toNat + n := by
  have hsize := size_word
  have hlast := last.toNat_lt
  have hn : (UInt16.ofNat n).toNat = n := UInt16.toNat_ofNat_of_lt' (by omega)
  have hsum : (UInt16.ofNat n + first).toNat = first.toNat + n := by
    rw [UInt16.toNat_add, hn, Nat.mod_eq_of_lt (by omega), Nat.add_comm]
  refine ⟨UInt16.ofNat n + first, ?_, hsum⟩
  have hword : word? n = some (.ofNat n) := if_pos (by omega)
  have hadd : checkedAdd? (.ofNat n) first = some (.ofNat n + first) := if_pos (by omega)
  have hle : UInt16.ofNat n + first ≤ last := by
    rw [UInt16.le_iff_toNat_le, hsum]
    exact h
  rw [hword, Option.bind_some, hadd, Option.filter_some, if_pos (decide_eq_true hle)]

private theorem nextWord_eq_none {n : Nat} {first last : UInt16} (h : last.toNat < first.toNat + n) :
    ((word? n).bind fun n => checkedAdd? n first).filter (· ≤ last) = none := by
  rw [Option.filter_eq_none_iff]
  intro k hk
  obtain ⟨m, hm, hadd⟩ := Option.bind_eq_some_iff.1 hk
  obtain ⟨hn, hm⟩ := Option.ite_none_right_eq_some.1 hm
  cases hm
  obtain ⟨hsum, hadd⟩ := Option.ite_none_right_eq_some.1 hadd
  cases hadd
  -- the sum does not wrap, so it is the number that is too large
  have hsize := size_word
  have hn' := UInt16.toNat_ofNat_of_lt' hn
  rw [decide_eq_true_iff, UInt16.le_iff_toNat_le, UInt16.toNat_add, hn', Nat.mod_eq_of_lt (by omega)]
  omega

/-- Words are enough to number names. -/
theorem number?_eq_numberInWords? (names : NameMap) (name : String) (first last : UInt16) :
    names.number? name first.toNat last.toNat = names.numberInWords? name first last := by
  unfold number? numberInWords?
  cases names[name]? with
  | some k => rfl
  | none =>
    by_cases h : first.toNat + names.size ≤ last.toNat
    · obtain ⟨k, hk, hnat⟩ := nextWord_eq_some h
      simp only [hk, Option.map_some, hnat, if_pos h]
    · simp only [nextWord_eq_none (Nat.lt_of_not_le h), Option.map_none, if_neg h]

/-! ### All numbers are in use -/

private theorem covers_keys (names : NameMap) : names.Covers names.keys.toFinset := by
  intro name
  rw [List.mem_toFinset, Std.ExtTreeMap.mem_keys]

/-- As many different numbers as there are names leave no gap. -/
theorem IsNumbering.exists_name (h : names.IsNumbering first last) (hk : first ≤ k) (hlt : k < first + names.size) :
    ∃ name : String, names[name]? = some k := by
  have hget : ∀ name ∈ names.keys.toFinset, names[name]? = some (names[name]?.getD 0) := by
    intro name hname
    rw [← names.covers_keys name, Std.ExtTreeMap.mem_iff_isSome_getElem?] at hname
    obtain ⟨k, hk⟩ := Option.isSome_iff_exists.1 hname
    rw [hk, Option.getD_some]
  have hsurj : Set.SurjOn (fun name : String => names[name]?.getD 0) names.keys.toFinset
      (Finset.Ico first (first + names.size)) := by
    apply Finset.surjOn_of_injOn_of_card_le
    · intro name hname
      exact Finset.mem_coe.2 (Finset.mem_Ico.2 (h.range (hget name hname)))
    · intro name hname name' hname' heq
      have hnumber := hget name hname
      simp only [] at heq
      rw [heq] at hnumber
      exact h.injective hnumber (hget name' hname')
    · rw [Nat.card_Ico, ← names.covers_keys.size_eq, Nat.add_sub_cancel_left]
  obtain ⟨name, hname, rfl⟩ := hsurj (Finset.mem_coe.2 (Finset.mem_Ico.2 ⟨hk, hlt⟩))
  exact ⟨name, hget name hname⟩

/-- Each name has a number of its own, and the numbers are those of a set. -/
structure Uses (names : NameMap) (numbers : Set Nat) : Prop where
  injective : ∀ {name name' : String} {k : Nat}, names[name]? = some k → names[name']? = some k → name = name'
  mem_iff : ∀ k, k ∈ numbers ↔ ∃ name : String, names[name]? = some k

private theorem IsNumbering.uses {numbers : Set Nat} (h : names.IsNumbering first last)
    (hnumbers : ∀ k, k ∈ numbers ↔ first ≤ k ∧ k < first + names.size) : names.Uses numbers where
  injective := h.injective
  mem_iff k := by
    rw [hnumbers]
    constructor
    · rintro ⟨hk, hlt⟩
      exact h.exists_name hk hlt
    · rintro ⟨name, hname⟩
      exact h.range hname

end NameMap

namespace FlagNames

variable {names : FlagNames} {text : String}

/-- The count of features as a word.  A count that is too large for one would be cut down to the last word. -/
def featureCountWord (names : FlagNames) : UInt16 :=
  (NameMap.word? names.features.size).getD (.ofNat (UInt16.size - 1))

/-! ### Texts that find no number -/

private theorem ofText_ne_tooManyNames : NamedFlag.ofText text ≠ .error .tooManyNames := by
  intro h
  unfold NamedFlag.ofText at h
  split at h
  · rename_i letter rest _
    simp only [] at h
    split at h
    · cases h
    · unfold FlagOp.ofLetter at h
      split at h <;> cases h
  · cases h

/-- A text finds no number if it is a flag and all numbers are taken: those for features, and its own is new, or, when
its feature has been numbered, those for values, and its own is new. -/
theorem read_eq_tooManyNames (hn : names.IsNumbering) : (names.read text).1 = .error .tooManyNames ↔
    ∃ flag : NamedFlag, flag.IsWritten text ∧ (flag.feature ∉ names.features ∧ names.features.size = 65535 ∨
      flag.feature ∈ (names.read text).2.features ∧
        ∃ v, flag.value = some v ∧ v ∉ names.values ∧ names.values.size = 65535) := by
  have hfeatures := hn.features.size_le
  have hvalues := hn.values.size_le
  rw [lastFeature, Nat.zero_add] at hfeatures
  rw [lastValue] at hvalues
  simp only [NamedFlag.isWritten_iff]
  unfold read
  cases hflag : NamedFlag.ofText text with
  | error e =>
    simp only [reduceCtorEq, false_and, exists_false, iff_false, Except.error.injEq]
    rintro rfl
    exact ofText_ne_tooManyNames hflag
  | ok flag =>
    simp only [Except.ok.injEq, exists_eq_left']
    rcases hnum : names.number flag text with ⟨e | f, names'⟩
    · -- what finds no number has a new name, and there is none left for it
      obtain ⟨rfl, ⟨hnone, -⟩ | ⟨k, features, hk, hnone, rfl⟩⟩ := number_eq_error.1 hnum
      · obtain ⟨hnew, hlt⟩ := NameMap.number?_eq_none.1 hnone
        rw [lastFeature] at hlt
        exact iff_of_true rfl (.inl ⟨hnew, by omega⟩)
      · have hmem : flag.feature ∈ features := by
          rw [Std.ExtTreeMap.mem_iff_isSome_getElem?, (NameMap.extends_number? hk).2]
          rfl
        cases hv : flag.value with
        | none =>
          rw [hv] at hnone
          cases hnone
        | some v =>
          rw [hv, numberValue?, Option.map_eq_none_iff, NameMap.number?_eq_none] at hnone
          obtain ⟨hnew, hfull⟩ := hnone
          have hlt : lastValue < 1 + names.values.size := hfull
          rw [lastValue] at hlt
          exact iff_of_true rfl (.inr ⟨hmem, v, rfl, hnew, by omega⟩)
    · obtain ⟨⟨hfeature, hvalue⟩, -⟩ := (exists_number_iff_hasRoom text).1 ⟨f, names', hnum, rfl⟩
      refine iff_of_false (by simp) ?_
      rintro (⟨hnew, hsize⟩ | ⟨-, v, hv, hnew, hsize⟩)
      · rcases hfeature with hmem | hlt
        · exact hnew hmem
        · omega
      · rcases hvalue v hv with hmem | hlt
        · exact hnew hmem
        · omega

/-! ### Texts one after the other -/

/-- There are n features and m values, and the numbers of both are counted without a gap. -/
structure Counts (names : FlagNames) (n m : Nat) : Prop where
  features : names.features.Uses (Set.Iio n)
  values : names.values.Uses (Set.Icc 1 m)
  features_le : n ≤ 65535
  values_le : m ≤ 65535
  featureCount : names.featureCountWord.toNat = n
  /-- The words in which the numbers are worked out are those of the counting. -/
  inWords : ∀ name : String, names.features.number? name 0 lastFeature = names.features.numberInWords? name 0 65534 ∧
    names.values.number? name 1 lastValue = names.values.numberInWords? name 1 65535

private theorem toNat_featureCountWord (h : names.features.size < UInt16.size) :
    names.featureCountWord.toNat = names.features.size := by
  have hword : NameMap.word? names.features.size = some (.ofNat names.features.size) := if_pos h
  rw [featureCountWord, hword, Option.getD_some, UInt16.toNat_ofNat_of_lt' h]

private theorem IsNumbering.counts (h : names.IsNumbering) : names.Counts names.featureCount names.values.size := by
  have hfeatures := h.features.size_le
  have hvalues := h.values.size_le
  rw [lastFeature, Nat.zero_add] at hfeatures
  rw [lastValue] at hvalues
  refine ⟨h.features.uses fun k => ?_, h.values.uses fun k => ?_, hfeatures, by omega,
    toNat_featureCountWord (Nat.lt_succ_of_le hfeatures), fun name => ⟨?_, ?_⟩⟩
  · rw [Set.mem_Iio, featureCount]
    omega
  · rw [Set.mem_Icc]
    omega
  · exact NameMap.number?_eq_numberInWords? names.features name 0 65534
  · exact NameMap.number?_eq_numberInWords? names.values name 1 65535

private theorem grows_readAll (calls more : List String) : (readAll calls).Grows (readAll (calls ++ more)) := by
  rw [readAll, readAll, List.foldl_append]
  exact grows_foldl _ _

private theorem readAll_append (calls : List String) (text : String) :
    readAll (calls ++ [text]) = ((readAll calls).read text).2 := by
  rw [readAll, List.foldl_append, List.foldl_cons, List.foldl_nil]
  rfl

/-- Whatever texts are read, names keep their numbers, and those in use are counted without a gap, features from zero
and values from one, up to 65535 of each.  What a flag gives are the numbers of its names, and a text finds none exactly
if it is a flag with a new name that would be one too many. -/
theorem numbers_of_calls (calls : List String) :
    (∀ more, (readAll calls).features.Extends (readAll (calls ++ more)).features ∧
      (readAll calls).values.Extends (readAll (calls ++ more)).values) ∧
    (∀ text f, ((readAll calls).read text).1 = .ok f →
      ∃ flag : NamedFlag, flag.IsWritten text ∧ (readAll (calls ++ [text])).Numbers f flag) ∧
    ∃ n m, (readAll calls).Counts n m ∧ ∀ text, ((readAll calls).read text).1 = .error .tooManyNames ↔
      ∃ flag : NamedFlag, flag.IsWritten text ∧ (flag.feature ∉ (readAll calls).features ∧ n = 65535 ∨
        flag.feature ∈ (readAll (calls ++ [text])).features ∧
          ∃ v, flag.value = some v ∧ v ∉ (readAll calls).values ∧ m = 65535) := by
  have hn := isNumbering_readAll calls
  refine ⟨fun more => ?_, fun text f hread => ?_, _, _, hn.counts, fun text => ?_⟩
  · have hgrows := grows_readAll calls more
    exact ⟨hgrows.features, hgrows.values⟩
  · obtain ⟨flag, hflag, hnumbers, -⟩ := ((readAll calls).grows_read text).2 f hread
    rw [readAll_append]
    exact ⟨flag, NamedFlag.isWritten_iff.2 hflag, hnumbers⟩
  · rw [readAll_append]
    exact read_eq_tooManyNames hn

end FlagNames

end LexicalTransducer
