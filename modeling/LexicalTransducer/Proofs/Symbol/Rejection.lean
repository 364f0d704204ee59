import LexicalTransducer.Proofs.Symbol.FirstDefinition
import Std.Data.String.ToNat

/-!
# Rejected definitions

A rejected definition leaves the table under construction as it is, with one exception (`define_rejected`).  Of the
two names of a flag the feature is numbered first, and it keeps its number where all numbers for values are taken
(`LeavesFeature`).
-/

namespace LexicalTransducer

namespace SymbolTable.Builder

variable {b b' : Builder} {code : Int} {text : String} {flag : NamedFlag} {fault : NetFault}

/-! ### What can be seen of a table under construction -/

/-- What comes of further definitions, one by one. -/
def outcomes (b : Builder) : List (Int × String) → List (Except NetFault Unit)
  | [] => []
  | e :: calls => (b.define e.1 e.2).1 :: (b.define e.1 e.2).2.outcomes calls

/-- Whatever is defined from now on, the two answer alike: to these definitions, to the codes of arcs behind them, and
in the finished table. -/
structure ActsLike (b b' : Builder) : Prop where
  outcomes : ∀ calls, b.outcomes calls = b'.outcomes calls
  resolve : ∀ calls code, (b.built calls).resolve code = (b'.built calls).resolve code
  finish : ∀ calls, (b.built calls).finish = (b'.built calls).finish

private theorem ActsLike.refl (b : Builder) : b.ActsLike b :=
  ⟨fun _ => rfl, fun _ _ => rfl, fun _ => rfl⟩

/-! ### Features that are left behind -/

/-- The definition is of a flag with two new names, and only the feature finds a number. -/
structure LeavesFeature (b : Builder) (code : Int) (text : String) (flag : NamedFlag) : Prop where
  free : ∃ id, Text.word32? code = some id ∧ id ∉ b.symbols
  reads : NamedFlag.ofText text = .ok flag
  feature_notMem : flag.feature ∉ b.names.features
  feature_fits : b.names.features.size ≤ FlagNames.lastFeature
  value_notMem : ∃ v, flag.value = some v ∧ v ∉ b.names.values
  values_full : FlagNames.lastValue ≤ b.names.values.size

/-- The table under construction with a number for one more feature. -/
def withFeature (b : Builder) (feature : String) : Builder :=
  { b with names := { b.names with features := b.names.features.insert feature b.names.features.size } }

private theorem finish_withFeature {feature : String} (h : feature ∉ b.names.features) :
    (b.withFeature feature).finish = { b.finish with featureCount := b.finish.featureCount + 1 } := by
  have hsize : (b.names.features.insert feature b.names.features.size).size = b.names.features.size + 1 := by
    rw [Std.ExtTreeMap.size_insert]
    exact if_neg h
  show ({ b.finish with featureCount := _ } : SymbolTable) = _
  rw [FlagNames.featureCount, withFeature, hsize]
  rfl

private theorem LeavesFeature.number_eq (h : b.LeavesFeature code text flag) :
    b.names.number flag text = (.error .tooManyNames, (b.withFeature flag.feature).names) := by
  obtain ⟨v, hv, hnot⟩ := h.value_notMem
  have hfeature : b.names.features.number? flag.feature 0 FlagNames.lastFeature =
      some (b.names.features.size, b.names.features.insert flag.feature b.names.features.size) :=
    NameMap.number?_eq_some.2 (.inr ⟨Std.ExtTreeMap.getElem?_eq_none h.feature_notMem, (Nat.zero_add _).symm,
      h.feature_fits, rfl⟩)
  refine FlagNames.number_eq_error.2 ⟨rfl, .inr ⟨_, _, hfeature, ?_, rfl⟩⟩
  rw [hv, FlagNames.numberValue?, Option.map_eq_none_iff, NameMap.number?_eq_none]
  exact ⟨hnot, Nat.lt_one_add_iff.2 h.values_full⟩

private theorem LeavesFeature.define_eq (h : b.LeavesFeature code text flag) :
    b.define code text = (.error (.invalidFlag text), b.withFeature flag.feature) := by
  obtain ⟨id, hw, hid⟩ := h.free
  unfold define
  rw [hw, Symbol.ofText_of_flag b.names h.reads, h.number_eq]
  simp only [if_neg hid]
  rfl

/-- A flag that finds no numbers leaves everything as it is, or its feature behind. -/
private theorem eq_or_leavesFeature_of_number {id : Nat} {names : FlagNames} {e : FlagFault}
    (hw : Text.word32? code = some id) (hid : id ∉ b.symbols) (hflag : NamedFlag.ofText text = .ok flag)
    (hn : b.names.number flag text = (.error e, names)) : names = b.names ∨ b.LeavesFeature code text flag := by
  obtain ⟨-, ⟨-, rfl⟩ | ⟨k, features, hfeature, hvalue, rfl⟩⟩ := FlagNames.number_eq_error.1 hn
  · exact .inl rfl
  rcases NameMap.number?_eq_some.1 hfeature with ⟨-, rfl⟩ | ⟨hnew, rfl, hle, rfl⟩
  · exact .inl rfl
  cases hv : flag.value with
  | none =>
    rw [hv] at hvalue
    cases hvalue
  | some v =>
    rw [hv, FlagNames.numberValue?, Option.map_eq_none_iff, NameMap.number?_eq_none] at hvalue
    refine .inr ⟨⟨id, hw, hid⟩, hflag, ?_, ?_, ⟨v, hv, hvalue.1⟩, Nat.lt_one_add_iff.1 hvalue.2⟩
    · rw [Std.ExtTreeMap.mem_iff_isSome_getElem?, hnew]
      exact Bool.false_ne_true
    · rwa [Nat.zero_add] at hle

/-- A rejected definition leaves everything as it is, or the feature of its flag behind. -/
private theorem eq_or_leavesFeature (h : b.define code text = (.error fault, b')) :
    b' = b ∨ ∃ flag, b.LeavesFeature code text flag := by
  unfold define at h
  split at h
  · cases h
    exact .inl rfl
  rename_i id hw
  split at h
  · cases h
    exact .inl rfl
  rename_i hid
  split at h
  · rename_i e names hof
    cases h
    have hnames : names = (b.names.read text).2 := by rw [← Symbol.snd_ofText, hof]
    cases hflag : NamedFlag.ofText text with
    | error e' =>
      rw [FlagNames.read, hflag] at hnames
      exact .inl (congrArg (fun names => { b with names }) hnames)
    | ok flag =>
      rw [Symbol.ofText_of_flag b.names hflag] at hof
      rcases hn : b.names.number flag text with ⟨e' | fl, names'⟩
      · rw [hn] at hof
        cases hof
        rcases eq_or_leavesFeature_of_number hw hid hflag hn with rfl | hleaves
        · exact .inl rfl
        · exact .inr ⟨flag, hleaves⟩
      · rw [hn] at hof
        cases hof
  · cases h

private theorem LeavesFeature.not_actsLike (h : b.LeavesFeature code text flag) :
    ¬ (b.withFeature flag.feature).ActsLike b := by
  intro hlike
  have hcount := congrArg SymbolTable.featureCount (hlike.finish [])
  rw [built, built, finish_withFeature h.feature_notMem] at hcount
  exact absurd hcount (Nat.succ_ne_self _)

/-- A rejected definition leaves all that is bound as it is, and whatever follows comes out as without it, unless the
definition is of a flag whose value finds no number.  Then its feature stays behind, and the table counts it. -/
theorem define_rejected (h : b.define code text = (.error fault, b')) :
    b'.symbols = b.symbols ∧ b'.codes = b.codes ∧ (∀ code', b'.resolve code' = b.resolve code') ∧
      (b'.ActsLike b ↔ ¬ ∃ flag, b.LeavesFeature code text flag) ∧
        ∀ flag, b.LeavesFeature code text flag → fault = .invalidFlag text ∧ b' = b.withFeature flag.feature ∧
          b'.finish = { b.finish with featureCount := b.finish.featureCount + 1 } := by
  obtain ⟨hsymbols, hcodes⟩ := define_error (e := (code, text)) h
  refine ⟨hsymbols, hcodes, fun code' => by rw [resolve, resolve, hsymbols], ⟨?_, ?_⟩, ?_⟩
  · rintro hlike ⟨flag, hleaves⟩
    cases h.symm.trans hleaves.define_eq
    exact hleaves.not_actsLike hlike
  · intro hnot
    rw [(eq_or_leavesFeature h).resolve_right hnot]
    exact .refl b
  · intro flag hleaves
    cases h.symm.trans hleaves.define_eq
    exact ⟨rfl, rfl, finish_withFeature hleaves.feature_notMem⟩

def tagged : Builder :=
  built {} [(3, "a"), (4, "@P.x.y@")]

/-- A flag without the value that it should have is rejected and leaves no trace. -/
theorem define_withoutValue : (tagged.define 5 "@P.z@").1 = .error (.invalidFlag "@P.z@") ∧
    (tagged.define 5 "@P.z@").2.ActsLike tagged := by
  have hfault : (tagged.define 5 "@P.z@").1 = .error (.invalidFlag "@P.z@") := by
    decide +kernel
  have hrejected : tagged.define 5 "@P.z@" = (.error (.invalidFlag "@P.z@"), (tagged.define 5 "@P.z@").2) :=
    Prod.ext hfault rfl
  obtain ⟨-, -, -, hlike, -⟩ := define_rejected hrejected
  refine ⟨hfault, hlike.2 ?_⟩
  rintro ⟨flag, hleaves⟩
  exact absurd hleaves.values_full (by decide +kernel)

/-! ### A table with all numbers for values taken -/

/-- A flag that gives one feature a value of its own. -/
def valueFlag (i : Nat) : NamedFlag where
  op := .positive
  feature := "x"
  value := some ("v" ++ toString i)

def valueDefinition (i : Nat) : Int × String :=
  ((i : Int) + 3, (valueFlag i).text)

/-- As many different values as wanted, all of one feature. -/
def valueDefinitions (n : Nat) : List (Int × String) :=
  (List.range n).map valueDefinition

private theorem ofText_valueDefinition (i : Nat) : NamedFlag.ofText (valueDefinition i).2 = .ok (valueFlag i) := by
  refine NamedFlag.ofText_text ⟨?_, ?_, ?_, rfl⟩
  · show "x" ≠ ""
    decide
  · show '.' ∉ "x".toList
    decide
  · show some ("v" ++ toString i) ≠ some ""
    simp

private theorem flagsOf_valueDefinitions (n : Nat) : flagsOf (valueDefinitions n) = (List.range n).map valueFlag := by
  rw [flagsOf, valueDefinitions, List.filterMap_map, ← List.filterMap_eq_map]
  refine List.filterMap_congr fun i _ => ?_
  exact flagOf?_eq_some (ofText_valueDefinition i)

private theorem mem_valuesOf_valueDefinitions {n : Nat} {v : String} :
    v ∈ valuesOf (valueDefinitions n) ↔ ∃ i < n, "v" ++ toString i = v := by
  rw [valuesOf, flagsOf_valueDefinitions]
  simp [valueFlag]

private theorem card_valuesOf_valueDefinitions (n : Nat) : (valuesOf (valueDefinitions n)).card = n := by
  have himage : valuesOf (valueDefinitions n) = (Finset.range n).image fun i => "v" ++ toString i := by
    ext v
    simp [mem_valuesOf_valueDefinitions]
  rw [himage, Finset.card_image_of_injective, Finset.card_range]
  intro i j h
  exact Nat.repr_inj.1 ((String.append_right_inj _).1 h)

private theorem featuresOf_valueDefinitions {n : Nat} (hn : 0 < n) : featuresOf (valueDefinitions n) = {"x"} := by
  rw [featuresOf, flagsOf_valueDefinitions, List.map_map]
  ext name
  rw [List.mem_toFinset, List.mem_map, Finset.mem_singleton]
  constructor
  · rintro ⟨i, -, rfl⟩
    rfl
  · rintro rfl
    exact ⟨0, List.mem_range.2 hn, rfl⟩

private theorem isAlphabet_valueDefinitions {n : Nat} (hpos : 0 < n) (hn : n ≤ FlagNames.lastValue) :
    IsAlphabet (valueDefinitions n) where
  codes := by
    intro e he
    obtain ⟨i, hi, rfl⟩ := List.mem_map.1 he
    rw [List.mem_range] at hi
    show 0 ≤ (i : Int) + 3 ∧ (i : Int) + 3 < Text.wordCount32
    rw [FlagNames.lastValue] at hn
    rw [Text.wordCount32]
    omega
  texts := by
    intro e he
    obtain ⟨i, -, rfl⟩ := List.mem_map.1 he
    exact .inr ⟨valueFlag i, ofText_valueDefinition i⟩
  nodup := by
    rw [valueDefinitions, List.map_map]
    refine List.nodup_range.map ?_
    intro i j h
    have hcode : (i : Int) + 3 = j + 3 := h
    omega
  features := by
    rw [featuresOf_valueDefinitions hpos, Finset.card_singleton]
    exact Nat.le_of_ble_eq_true rfl
  values := by
    rw [card_valuesOf_valueDefinitions]
    exact hn

private theorem featureCount_of_records {n : Nat} (h : b.Records (valueDefinitions n)) (hn : 0 < n) :
    b.finish.featureCount = 1 := by
  show b.names.features.size = 1
  rw [h.names.features.size_eq, featuresOf_valueDefinitions hn, Finset.card_singleton]

/-- Behind as many values as there are numbers, a flag with two new names leaves its feature behind. -/
private theorem leavesFeature_of_records (h : b.Records (valueDefinitions FlagNames.lastValue)) :
    b.LeavesFeature 70000 "@P.y.w@" { op := .positive, feature := "y", value := some "w" } where
  free := by
    refine ⟨70000, rfl, ?_⟩
    rw [h.symbols, List.mem_map]
    rintro ⟨e, he, hcode⟩
    obtain ⟨i, hi, rfl⟩ := List.mem_map.1 he
    rw [List.mem_range, FlagNames.lastValue] at hi
    have hcode' : (i : Int) + 3 = 70000 := hcode
    omega
  reads := by decide +kernel
  feature_notMem := by
    rw [h.names.features, featuresOf_valueDefinitions FlagNames.lastValue_pos, Finset.mem_singleton]
    decide
  feature_fits := by
    have hcount : b.names.features.size = 1 := featureCount_of_records h FlagNames.lastValue_pos
    rw [hcount]
    exact Nat.le_of_ble_eq_true rfl
  value_notMem := by
    refine ⟨"w", rfl, ?_⟩
    rw [h.names.values, mem_valuesOf_valueDefinitions]
    rintro ⟨i, -, hi⟩
    have hhead := congrArg (fun v => v.toList.head?) hi
    simp at hhead
  values_full := by
    rw [h.names.values.size_eq, card_valuesOf_valueDefinitions]

/-- Behind as many values as there are numbers, a rejected flag is counted among the features. -/
theorem define_unnumberedValue : ∃ b b', built {} (valueDefinitions FlagNames.lastValue) = b ∧
    b.define 70000 "@P.y.w@" = (.error (.invalidFlag "@P.y.w@"), b') ∧
      b.finish.featureCount = 1 ∧ b'.finish.featureCount = 2 ∧ ¬ b'.ActsLike b := by
  have hpos := FlagNames.lastValue_pos
  obtain ⟨b, hs⟩ := exists_steps_defines_iff.2 (isAlphabet_valueDefinitions hpos (Nat.le_refl _))
  have hrecords := records_of_steps hs
  have hleaves := leavesFeature_of_records hrecords
  refine ⟨b, _, built_of_steps hs, hleaves.define_eq, featureCount_of_records hrecords hpos, ?_,
    hleaves.not_actsLike⟩
  rw [finish_withFeature hleaves.feature_notMem]
  show b.finish.featureCount + 1 = 2
  rw [featureCount_of_records hrecords hpos]

end SymbolTable.Builder

end LexicalTransducer
