import LexicalTransducer.Proofs.Flag.Meaning
import LexicalTransducer.Proofs.Flag.WrittenForm
import LexicalTransducer.Proofs.Symbol.Names

/-!
# Flags are read without loss

A text is a flag if it is `@X.feature@` with the letter of an operation without a value, or `@X.feature.value@` with
the letter of one with a value (`NamedFlag.IsWritten`).  Such a text is read if there are numbers for its names, and no
other text is.  Two texts that have been read give the same operation with the same numbers only if they are the same
text, whatever has been read in between (`FlagNames.read_lossless`).
-/

namespace LexicalTransducer

/-! ### How a flag is written -/

namespace FlagOp

/-- The letters of the operations without a value. -/
def bare : List (Char × FlagOp) :=
  [('R', requireFeature), ('D', disallowFeature), ('C', clear)]

/-- The letters of the operations with a value. -/
def valued : List (Char × FlagOp) :=
  [('P', positive), ('U', unify), ('R', requireValue), ('D', disallowValue)]

variable {c : Char} {op : FlagOp}

private theorem mem_bare_iff : (c, op) ∈ bare ↔ op.letter = c ∧ op.takesValue = false := by
  cases op <;> simp [bare, letter, takesValue, eq_comm]

private theorem mem_valued_iff : (c, op) ∈ valued ↔ op.letter = c ∧ op.takesValue = true := by
  cases op <;> simp [valued, letter, takesValue, eq_comm]

end FlagOp

namespace NamedFlag

/-- The text is the flag.  No name is empty, and the feature has no dot in it. -/
inductive IsWritten : NamedFlag → String → Prop
  | bare {letter : Char} {op : FlagOp} {feature : String} (hop : (letter, op) ∈ FlagOp.bare) (hne : feature ≠ "")
      (hdot : '.' ∉ feature.toList) :
      IsWritten ⟨op, feature, none⟩ ("@" ++ letter.toString ++ "." ++ feature ++ "@")
  | valued {letter : Char} {op : FlagOp} {feature value : String} (hop : (letter, op) ∈ FlagOp.valued)
      (hne : feature ≠ "") (hdot : '.' ∉ feature.toList) (hvalue : value ≠ "") :
      IsWritten ⟨op, feature, some value⟩ ("@" ++ letter.toString ++ "." ++ feature ++ "." ++ value ++ "@")

variable {f : NamedFlag} {s : String}

private theorem text_bare (op : FlagOp) (feature : String) :
    text ⟨op, feature, none⟩ = "@" ++ op.letter.toString ++ "." ++ feature ++ "@" := by
  rw [← String.toList_inj, toList_text]
  simp [dotted]

private theorem text_valued (op : FlagOp) (feature value : String) :
    text ⟨op, feature, some value⟩ = "@" ++ op.letter.toString ++ "." ++ feature ++ "." ++ value ++ "@" := by
  rw [← String.toList_inj, toList_text]
  simp [dotted]

theorem isWritten_iff : f.IsWritten s ↔ ofText s = .ok f := by
  rw [ofText_eq_ok]
  constructor
  · intro h
    cases h with
    | bare hop hne hdot =>
      obtain ⟨rfl, htakes⟩ := FlagOp.mem_bare_iff.1 hop
      exact ⟨⟨hne, hdot, by simp, htakes⟩, (text_bare _ _).symm⟩
    | valued hop hne hdot hvalue =>
      obtain ⟨rfl, htakes⟩ := FlagOp.mem_valued_iff.1 hop
      exact ⟨⟨hne, hdot, by simpa using hvalue, htakes⟩, (text_valued _ _ _).symm⟩
  · rintro ⟨⟨hne, hdot, hvalue, htakes⟩, rfl⟩
    obtain ⟨op, feature, value⟩ := f
    cases value with
    | none =>
      rw [text_bare]
      exact .bare (FlagOp.mem_bare_iff.2 ⟨rfl, htakes⟩) hne hdot
    | some value =>
      rw [text_valued]
      exact .valued (FlagOp.mem_valued_iff.2 ⟨rfl, htakes⟩) hne hdot (by simpa using hvalue)

end NamedFlag

/-! ### Numbers for the names of a flag -/

private theorem NameMap.exists_number?_iff_mem (names : NameMap) (name : String) (first last : Nat) :
    (∃ k names', names.number? name first last = some (k, names')) ↔ name ∈ names ∨ first + names.size ≤ last := by
  have hne : (∃ k names', names.number? name first last = some (k, names')) ↔
      names.number? name first last ≠ none := by
    rw [Option.ne_none_iff_exists', Prod.exists]
  rw [hne, ne_eq, NameMap.number?_eq_none, not_and_or, not_not, Nat.not_lt]

namespace FlagNames

/-- Each name of the flag has a number, or there is one left for it. -/
structure HasRoom (names : FlagNames) (flag : NamedFlag) : Prop where
  feature : flag.feature ∈ names.features ∨ names.features.size < 65535
  value : ∀ v, flag.value = some v → v ∈ names.values ∨ names.values.size < 65535

variable {names : FlagNames} {flag : NamedFlag} {text text' : String} {f f' : Flag} {op : FlagOp}

private theorem exists_numberValue?_iff_mem (names : FlagNames) (value : Option String) :
    (∃ n names', names.numberValue? value = some (n, names')) ↔
      ∀ v, value = some v → v ∈ names.values ∨ names.values.size < 65535 := by
  cases value with
  | none => simp [numberValue?]
  | some v =>
    have hroom := NameMap.exists_number?_iff_mem names.values v 1 lastValue
    have hlast : 1 + names.values.size ≤ lastValue ↔ names.values.size < 65535 := by
      rw [lastValue]
      omega
    rw [hlast] at hroom
    simp [numberValue?, ← hroom]

theorem exists_number_iff_hasRoom (text : String) :
    (∃ f names', names.number flag text = (.ok f, names') ∧ f.op = op) ↔ names.HasRoom flag ∧ flag.op = op := by
  have hfeature := NameMap.exists_number?_iff_mem names.features flag.feature 0 lastFeature
  have hlast : 0 + names.features.size ≤ lastFeature ↔ names.features.size < 65535 := by
    rw [lastFeature]
    omega
  rw [hlast] at hfeature
  constructor
  · rintro ⟨f, names', hn, rfl⟩
    obtain ⟨k, features, v, hk, hv, rfl⟩ := number_eq_ok.1 hn
    have hroom := exists_numberValue?_iff_mem { names with features } flag.value
    exact ⟨⟨hfeature.1 ⟨k, features, hk⟩, hroom.1 ⟨v, names', hv⟩⟩, rfl⟩
  · rintro ⟨⟨hf, hv⟩, rfl⟩
    obtain ⟨k, features, hk⟩ := hfeature.2 hf
    -- the number of the feature takes none from the values
    have hroom := exists_numberValue?_iff_mem { names with features } flag.value
    obtain ⟨v, names', hv⟩ := hroom.2 hv
    exact ⟨_, names', number_eq_ok.2 ⟨k, features, v, hk, hv, rfl⟩, rfl⟩

/-- A text is read if it is a flag and there are numbers for its names. -/
private theorem exists_read_iff : (∃ f, (names.read text).1 = .ok f ∧ f.op = op) ↔
    ∃ flag : NamedFlag, flag.IsWritten text ∧ names.HasRoom flag ∧ flag.op = op := by
  simp only [NamedFlag.isWritten_iff]
  unfold read
  cases hflag : NamedFlag.ofText text with
  | error e => simp
  | ok flag =>
    simp only [Except.ok.injEq, exists_eq_left', ← exists_number_iff_hasRoom text, Prod.ext_iff,
      exists_and_right, exists_and_left, exists_eq', and_true]

/-! ### Texts one after the other -/

/-- The call at the place `n` reads this text, and what it gives is the flag. -/
def ReadAt (calls : List String) (n : Nat) (text : String) (f : Flag) : Prop :=
  calls[n]? = some text ∧ ((readAll (calls.take n)).read text).1 = .ok f

/-- What a call has given says at the end of the calls what its text says. -/
private theorem ReadAt.numbers {calls : List String} {n : Nat} (h : ReadAt calls n text f) :
    ∃ flag : NamedFlag, NamedFlag.ofText text = .ok flag ∧ (readAll calls).Numbers f flag := by
  obtain ⟨hn, hread⟩ := h
  obtain ⟨flag, hflag, -⟩ := ((readAll (calls.take n)).grows_read text).2 f hread
  obtain ⟨hlt, rfl⟩ := List.getElem?_eq_some_iff.1 hn
  have hcut : calls = calls.take n ++ calls[n] :: calls.drop (n + 1) := by simp
  exact ⟨flag, hflag, ReadFrom.numbers ⟨_, _, _, hcut, hread, hflag⟩⟩

/-- Numbers tell flags apart as their names do. -/
private theorem Numbers.eq_iff {flag' : NamedFlag} (hn : names.IsNumbering) (h : names.Numbers f flag)
    (h' : names.Numbers f' flag') : (f.op, f.feature, f.value) = (f'.op, f'.feature, f'.value) ↔ flag = flag' := by
  constructor
  · intro heq
    simp only [Prod.mk.injEq] at heq
    obtain ⟨hop, hfeature, hvalue⟩ := heq
    have hnamed : flag.feature = flag'.feature := hn.features.injective h.feature (hfeature ▸ h'.feature)
    have hvalues : flag.value = flag'.value := (h.value.eq_iff hn h'.value).1 hvalue
    rw [h.op, h'.op] at hop
    cases flag
    cases flag'
    simp_all
  · rintro rfl
    have hfeature : f.feature = f'.feature := Option.some.inj (h.feature.symm.trans h'.feature)
    have hvalue : f.value = f'.value := (h.value.eq_iff hn h'.value).2 rfl
    rw [h.op, h'.op, hfeature, hvalue]

/-- A text is read exactly if it is a flag with this operation and there are numbers for its names, and of all the texts
that are read one after the other, no two give the same numbers. -/
theorem read_lossless :
    (∀ (names : FlagNames) (text : String) (op : FlagOp), (∃ f, (names.read text).1 = .ok f ∧ f.op = op) ↔
      ∃ flag : NamedFlag, flag.IsWritten text ∧ names.HasRoom flag ∧ flag.op = op) ∧
    ∀ (calls : List String) (n m : Nat) (text text' : String) (f f' : Flag), ReadAt calls n text f →
      ReadAt calls m text' f' → ((f.op, f.feature, f.value) = (f'.op, f'.feature, f'.value) ↔ text = text') := by
  refine ⟨fun _ _ _ => exists_read_iff, ?_⟩
  intro calls n m text text' f f' h h'
  obtain ⟨flag, hflag, hnumbers⟩ := h.numbers
  obtain ⟨flag', hflag', hnumbers'⟩ := h'.numbers
  rw [hnumbers.eq_iff (isNumbering_readAll calls) hnumbers']
  constructor
  · rintro rfl
    rw [(NamedFlag.ofText_eq_ok.1 hflag).2, (NamedFlag.ofText_eq_ok.1 hflag').2]
  · rintro rfl
    exact Except.ok.inj (hflag.symm.trans hflag')

/-- Flags with one feature and values that begin alike, and between them two texts that are no flags. -/
def alikeTexts : List String :=
  ["@P.x.y@", "@U.x@", "@R.@@", "x", "@P.x.y.@@", "@P.x.y@"]

theorem read_lossless_alike :
    ReadAt alikeTexts 0 "@P.x.y@" ⟨.positive, 0, 1, "@P.x.y@"⟩ ∧
    ReadAt alikeTexts 4 "@P.x.y.@@" ⟨.positive, 0, 2, "@P.x.y.@@"⟩ ∧
    (FlagOp.positive, 0, 1) ≠ (FlagOp.positive, 0, 2) ∧
    ∀ f, ReadAt alikeTexts 5 "@P.x.y@" f → (FlagOp.positive, 0, 1) = (f.op, f.feature, f.value) := by
  have hfirst : ReadAt alikeTexts 0 "@P.x.y@" ⟨.positive, 0, 1, "@P.x.y@"⟩ := ⟨rfl, by decide +kernel⟩
  have hdotted : ReadAt alikeTexts 4 "@P.x.y.@@" ⟨.positive, 0, 2, "@P.x.y.@@"⟩ := ⟨rfl, by decide +kernel⟩
  obtain ⟨-, hapart⟩ := read_lossless
  refine ⟨hfirst, hdotted, fun heq => ?_, fun f hagain => ?_⟩
  · exact absurd ((hapart _ _ _ _ _ _ _ hfirst hdotted).1 heq) (by decide +kernel)
  · exact (hapart _ _ _ _ _ _ _ hfirst hagain).2 rfl

end FlagNames

end LexicalTransducer
