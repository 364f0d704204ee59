import LexicalTransducer.Flag.Named
import LexicalTransducer.Proofs.Outcome
import Mathlib.Data.List.Basic

/-!
# What is written as a flag

A text reads as a flag exactly if it is the written form of this flag, and the flag can be told from it: its feature
has no dot, no name is empty, and it has a value where the operation takes one (`ofText_eq_ok`).
-/

namespace LexicalTransducer

/-- Whether a flag with this operation has a value. -/
def FlagOp.takesValue : FlagOp → Bool
  | .positive | .unify | .requireValue | .disallowValue => true
  | .requireFeature | .disallowFeature | .clear => false

private theorem FlagOp.ofLetter_eq_ok {letter : Char} {hasValue : Bool} {op : FlagOp} :
    ofLetter letter hasValue = .ok op ↔ op.letter = letter ∧ op.takesValue = hasValue := by
  constructor
  · intro h
    unfold ofLetter at h
    split at h <;> cases h <;> exact ⟨rfl, rfl⟩
  · rintro ⟨rfl, rfl⟩
    cases op <;> rfl

namespace NamedFlag

variable {cs inner feature : List Char} {value : Option (List Char)} {f : NamedFlag} {text : String}

/-! ### The parts of a text -/

private theorem betweenAts?_eq_some : betweenAts? cs = some inner ↔ cs = '@' :: inner ++ ['@'] := by
  constructor
  · intro h
    unfold betweenAts? at h
    split at h
    · split at h
      · rename_i cs hl
        cases h
        rw [List.cons_append, List.dropLast_append_getLast? _ hl]
      · cases h
    · cases h
  · rintro rfl
    show (if (inner ++ ['@']).getLast? = some '@' then some (inner ++ ['@']).dropLast else none) = _
    rw [List.getLast?_concat, if_pos rfl, List.dropLast_concat]

/-- A value behind the dot that divides it from the feature, or nothing. -/
def dotted (value : Option (List Char)) : List Char :=
  value.elim [] ('.' :: ·)

private theorem splitDot_append (h : '.' ∉ feature) (value : Option (List Char)) :
    splitDot (feature ++ dotted value) = (feature, value) := by
  have hall : ∀ c ∈ feature, (c != '.') = true := by
    intro c hc
    rw [bne_iff_ne]
    rintro rfl
    exact h hc
  unfold splitDot
  rw [List.dropWhile_append_of_pos hall, List.takeWhile_append_of_pos hall]
  cases value with
  | none =>
    show (feature ++ [], none) = _
    rw [List.append_nil]
  | some v =>
    show (feature ++ [], some v) = _
    rw [List.append_nil]

private theorem splitDot_eq_iff : splitDot cs = (feature, value) ↔ '.' ∉ feature ∧ cs = feature ++ dotted value := by
  constructor
  · intro h
    by_cases hdot : '.' ∈ cs
    · obtain ⟨before, after, rfl, hbefore⟩ := List.eq_append_cons_of_mem hdot
      cases (splitDot_append hbefore (some after)).symm.trans h
      exact ⟨hbefore, rfl⟩
    · have hnone := splitDot_append hdot none
      rw [dotted, Option.elim_none, List.append_nil, h] at hnone
      cases hnone
      exact ⟨hdot, (List.append_nil _).symm⟩
  · rintro ⟨hdot, rfl⟩
    exact splitDot_append hdot value

/-! ### The whole text -/

/-- The flag can be told from its written form. -/
structure IsWellFormed (f : NamedFlag) : Prop where
  feature_ne : f.feature ≠ ""
  no_dot : '.' ∉ f.feature.toList
  value_ne : f.value ≠ some ""
  takesValue : f.op.takesValue = f.value.isSome

theorem toList_text (f : NamedFlag) : f.text.toList =
    '@' :: (f.op.letter :: '.' :: (f.feature.toList ++ dotted (f.value.map String.toList))) ++ ['@'] := by
  rw [text, String.toList_ofList]
  cases f.value <;> simp [dotted]

theorem ofText_text (h : f.IsWellFormed) : ofText f.text = .ok f := by
  have hfeature : f.feature.toList.isEmpty = false := by
    simpa using h.feature_ne
  have hvalue : (f.value.map String.toList == some []) = false := by
    have hne := h.value_ne
    cases hv : f.value with
    | none => rfl
    | some v =>
      rw [hv] at hne
      simpa using hne
  have hop : FlagOp.ofLetter f.op.letter (f.value.map String.toList).isSome = .ok f.op := by
    rw [Option.isSome_map, FlagOp.ofLetter_eq_ok]
    exact ⟨rfl, h.takesValue⟩
  unfold ofText
  rw [betweenAts?_eq_some.2 f.toList_text]
  simp only [splitDot_append h.no_dot, hfeature, hvalue, hop, Bool.or_self, Bool.false_eq_true, if_false]
  show Except.ok _ = _
  congr
  · exact String.ofList_toList
  · rw [Option.map_map]
    cases f.value <;> simp

theorem ofText_eq_ok : ofText text = .ok f ↔ f.IsWellFormed ∧ text = f.text := by
  constructor
  · intro h
    unfold ofText at h
    split at h
    · rename_i letter names hbetween
      rcases hs : splitDot names with ⟨feature, value⟩
      obtain ⟨hdot, rfl⟩ := splitDot_eq_iff.1 hs
      simp only [hs] at h
      split at h
      · cases h
      · rename_i hempty
        rw [Bool.or_eq_true, not_or, List.isEmpty_iff, beq_iff_eq] at hempty
        obtain ⟨op, hop, hf⟩ := bind_eq_ok.1 h
        cases hf
        obtain ⟨rfl, htakes⟩ := FlagOp.ofLetter_eq_ok.1 hop
        refine ⟨⟨?_, ?_, ?_, ?_⟩, ?_⟩
        · simpa using hempty.1
        · rwa [String.toList_ofList]
        · cases value with
          | none => exact (Option.some_ne_none "").symm
          | some v => simpa using hempty.2
        · rw [Option.isSome_map, htakes]
        · rw [← String.toList_inj, toList_text, betweenAts?_eq_some.1 hbetween, String.toList_ofList, Option.map_map]
          cases value <;> simp
    · cases h
  · rintro ⟨h, rfl⟩
    exact ofText_text h

end NamedFlag

end LexicalTransducer
