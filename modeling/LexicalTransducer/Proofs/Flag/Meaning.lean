import LexicalTransducer.Proofs.Flag.Numbers
import Mathlib.Data.List.Forall2
import Mathlib.Logic.Function.Basic

/-!
# What flags mean

A flag speaks of features and values by their names, and an environment gives a feature a value or none
(`NamedFlag.test`, `NamedFlag.apply`).  A search works with numbers instead.  Its rows stand for environments
(`FlagNames.Represents`), a flag passes on a row if it passes on the environment (`Represents.test_eq`), and what it
writes into the row is what it changes in the environment (`Represents.apply`).  So both give the same answers, call
by call (`FlagCall.run_represents`).
-/

namespace LexicalTransducer

/-! ### Named environments -/

/-- The value of each feature that is set. -/
abbrev NamedEnv := String → Option String

namespace NamedFlag

/-- Whether the flag lets a path through when its feature has this value, or none. -/
def admits (f : NamedFlag) (current : Option String) : Bool :=
  match f.op with
  | .positive | .clear => true
  | .unify => current == none || current == f.value
  | .requireFeature => current != none
  | .requireValue => current == f.value
  | .disallowFeature => current == none
  | .disallowValue => current != f.value

/-- What becomes of the feature, if the flag changes it. -/
def assigned? (f : NamedFlag) : Option (Option String) :=
  match f.op with
  | .positive | .unify => some f.value
  | .clear => some none
  | .requireFeature | .requireValue | .disallowFeature | .disallowValue => none

def test (f : NamedFlag) (env : NamedEnv) : Bool :=
  f.admits (env f.feature)

def apply (f : NamedFlag) (env : NamedEnv) : NamedEnv :=
  match f.assigned? with
  | some value => Function.update env f.feature value
  | none => env

end NamedFlag

/-! ### Rows and environments -/

namespace FlagNames

/-- The row holds for each feature the number of its value, or of no value, and these numbers fit. -/
structure Represents (names : FlagNames) (row : Array Nat) (env : NamedEnv) : Prop where
  size : row.size = names.featureCount
  cell : ∀ {name : String} {k : Nat}, names.features[name]? = some k →
    ∃ n, row[k]? = some n ∧ names.Denotes n (env name)
  fits : ∀ n ∈ row, n ≤ lastValue

variable {names : FlagNames} {row : Array Nat} {env : NamedEnv} {f : Flag} {named : NamedFlag} {name : String}
  {k n : Nat} {value : Option String}

private theorem lt_featureCount (hn : names.IsNumbering) (hk : names.features[name]? = some k) :
    k < names.featureCount := by
  have := (hn.features.range hk).2
  rwa [Nat.zero_add] at this

theorem represents_start (hn : names.IsNumbering) :
    names.Represents (Array.replicate names.featureCount unset) fun _ => none where
  size := Array.size_replicate
  cell hk := ⟨unset, by rw [Array.getElem?_replicate, if_pos (lt_featureCount hn hk)], rfl⟩
  fits n h := by
    rw [Array.eq_of_mem_replicate h]
    exact Nat.zero_le _

/-- A cell has a number exactly if the feature has the value with this number. -/
private theorem Represents.cell_iff (h : names.Represents row env) (hn : names.IsNumbering)
    (hk : names.features[name]? = some k) (hv : names.Denotes n value) : row[k]? = some n ↔ env name = value := by
  obtain ⟨m, hm, henv⟩ := h.cell hk
  rw [hm, Option.some.injEq]
  exact henv.eq_iff hn hv

theorem Numbers.lt_featureCount (hn : names.IsNumbering) (hf : names.Numbers f named) :
    f.feature < names.featureCount :=
  FlagNames.lt_featureCount hn hf.feature

private theorem Represents.denotes_getD (h : names.Represents row env) (hk : names.features[name]? = some k) :
    names.Denotes (row.getD k unset) (env name) := by
  obtain ⟨n, hn, henv⟩ := h.cell hk
  rw [Array.getD_eq_getD_getElem?, hn]
  exact henv

private theorem Numbers.admits_eq (hn : names.IsNumbering) (hf : names.Numbers f named) (hv : names.Denotes n value) :
    f.admits n = named.admits value := by
  have hunset : (n == unset) = (value == none) := by
    rw [Bool.eq_iff_iff, beq_iff_eq, beq_iff_eq]
    have hnone : names.Denotes unset none := rfl
    exact hv.eq_iff hn hnone
  have hvalue : (n == f.value) = (value == named.value) := by
    rw [Bool.eq_iff_iff, beq_iff_eq, beq_iff_eq]
    exact hv.eq_iff hn hf.value
  unfold Flag.admits NamedFlag.admits
  rw [hf.op]
  cases named.op <;> simp only [bne, hunset, hvalue]

/-- A flag passes on a row if it passes on the environment that the row stands for. -/
theorem Represents.test_eq (h : names.Represents row env) (hn : names.IsNumbering) (hf : names.Numbers f named) :
    f.test row = named.test env :=
  hf.admits_eq hn (h.denotes_getD hf.feature)

private theorem Represents.assign (h : names.Represents row env) (hn : names.IsNumbering)
    (hk : names.features[name]? = some k) (hv : names.Denotes n value) :
    names.Represents (row.setIfInBounds k n) (Function.update env name value) where
  size := by rw [Array.size_setIfInBounds, h.size]
  cell {other j} hj := by
    by_cases hne : other = name
    · subst hne
      rw [hk, Option.some.injEq] at hj
      subst hj
      refine ⟨n, ?_, by rw [Function.update_self]; exact hv⟩
      rw [Array.getElem?_setIfInBounds_self_of_lt]
      rw [h.size]
      exact lt_featureCount hn hk
    · -- another feature has another cell
      have hkj : k ≠ j := by
        rintro rfl
        exact hne (hn.features.injective hj hk)
      obtain ⟨m, hm, henv⟩ := h.cell hj
      exact ⟨m, by rw [Array.getElem?_setIfInBounds_ne hkj, hm], by rw [Function.update_of_ne hne]; exact henv⟩
  fits m hm := by
    rcases Array.mem_or_eq_of_mem_setIfInBounds hm with hm | rfl
    · exact h.fits m hm
    · exact hv.le_lastValue hn

/-- What a flag writes into a row is what it changes in the environment that the row stands for. -/
theorem Represents.apply (h : names.Represents row env) (hn : names.IsNumbering) (hf : names.Numbers f named) :
    names.Represents (f.apply row) (named.apply env) := by
  unfold Flag.apply NamedFlag.apply Flag.assigned? NamedFlag.assigned?
  rw [hf.op]
  cases named.op with
  | positive | unify => exact h.assign hn hf.feature hf.value
  | clear => exact h.assign hn hf.feature rfl
  | requireFeature | requireValue | disallowFeature | disallowValue => exact h

/-! ### The flags of some texts -/

/-- The numbering behind some texts, whatever has come of each of them. -/
def readAll (texts : List String) : FlagNames :=
  texts.foldl (fun names text => (names.read text).2) {}

/-- The flag is what one of the texts has been read as, and `named` is what this text says. -/
def ReadFrom (texts : List String) (f : Flag) (named : NamedFlag) : Prop :=
  ∃ earlier text later, texts = earlier ++ text :: later ∧ ((readAll earlier).read text).1 = .ok f ∧
    NamedFlag.ofText text = .ok named

theorem grows_foldl (names : FlagNames) (texts : List String) :
    names.Grows (texts.foldl (fun names text => (names.read text).2) names) := by
  induction texts generalizing names with
  | nil => exact .refl names
  | cons text texts ih => exact (names.grows_read text).1.trans (ih _)

theorem isNumbering_readAll (texts : List String) : (readAll texts).IsNumbering :=
  (grows_foldl {} texts).isNumbering isNumbering_start

/-- A flag keeps its numbers up to the end of the reading. -/
theorem ReadFrom.numbers {texts : List String} (h : ReadFrom texts f named) : (readAll texts).Numbers f named := by
  obtain ⟨earlier, text, later, rfl, hf, hnamed⟩ := h
  obtain ⟨named', hnamed', hnumbers, -⟩ := ((readAll earlier).grows_read text).2 f hf
  cases hnamed.symm.trans hnamed'
  rw [readAll, List.foldl_append, List.foldl_cons]
  exact hnumbers.mono (grows_foldl _ later)

end FlagNames

/-! ### Rows of calls -/

/-- A call about an environment: whether a flag passes, or what it changes. -/
inductive FlagCall (α : Type)
  | test (f : α)
  | apply (f : α)
deriving DecidableEq, Repr

namespace FlagCall

/-- Calls of the same kind with flags that belong together. -/
inductive Matches {α β : Type} (R : α → β → Prop) : FlagCall α → FlagCall β → Prop
  | test {f : α} {g : β} (h : R f g) : Matches R (.test f) (.test g)
  | apply {f : α} {g : β} (h : R f g) : Matches R (.apply f) (.apply g)

/-- The answers of the tests among some calls, and the environment behind all of them. -/
def run {α ε : Type} (test : α → ε → Bool) (apply : α → ε → ε) : List (FlagCall α) → ε → List Bool × ε
  | [], env => ([], env)
  | .test f :: calls, env =>
    let (answers, env') := run test apply calls env
    (test f env :: answers, env')
  | .apply f :: calls, env => run test apply calls (apply f env)

/-- One call after the other, on a row and on the environment that it stands for. -/
private theorem run_represents_of_numbers {names : FlagNames} (hn : names.IsNumbering) {calls : List (FlagCall Flag)}
    {named : List (FlagCall NamedFlag)} (h : List.Forall₂ (Matches names.Numbers) calls named) {row : Array Nat}
    {env : NamedEnv} (hr : names.Represents row env) :
    (run Flag.test Flag.apply calls row).1 = (run NamedFlag.test NamedFlag.apply named env).1 ∧
    names.Represents (run Flag.test Flag.apply calls row).2 (run NamedFlag.test NamedFlag.apply named env).2 := by
  induction h generalizing row env with
  | nil => exact ⟨rfl, hr⟩
  | cons hcall _ ih =>
    cases hcall with
    | test hf =>
      obtain ⟨hanswers, hend⟩ := ih hr
      exact ⟨congrArg₂ List.cons (hr.test_eq hn hf) hanswers, hend⟩
    | apply hf => exact ih (hr.apply hn hf)

/-- Calls with flags of these texts, on the row that sets nothing and on the environment in which nothing is set.
The tests give the same answers, and behind the calls each feature has its cell, which is zero if the feature is unset
and else the number of its value. -/
theorem run_represents {texts : List String} {calls : List (FlagCall Flag)} {named : List (FlagCall NamedFlag)}
    (h : List.Forall₂ (Matches (FlagNames.ReadFrom texts)) calls named) :
    ∃ names answers row env, names = FlagNames.readAll texts ∧ names.IsNumbering ∧
      run Flag.test Flag.apply calls (Array.replicate names.featureCount unset) = (answers, row) ∧
      run NamedFlag.test NamedFlag.apply named (fun _ => none) = (answers, env) ∧
      names.Represents row env ∧
      (∀ name k, names.features[name]? = some k → k < row.size ∧ (row[k]? = some unset ↔ env name = none) ∧
        ∀ v n, names.values[v]? = some n → (row[k]? = some n ↔ env name = some v)) ∧
      ∀ f flag, FlagNames.ReadFrom texts f flag → names.Numbers f flag ∧ f.feature < row.size := by
  have hn := FlagNames.isNumbering_readAll texts
  have hnumbers : List.Forall₂ (Matches (FlagNames.readAll texts).Numbers) calls named := h.imp fun _ _ hcall => by
    cases hcall with
    | test hf => exact .test hf.numbers
    | apply hf => exact .apply hf.numbers
  obtain ⟨hanswers, hr⟩ := run_represents_of_numbers hn hnumbers (FlagNames.represents_start hn)
  refine ⟨_, _, _, _, rfl, hn, rfl, Prod.ext hanswers.symm rfl, hr, fun name k hk => ⟨?_, ?_, fun v n hv => ?_⟩,
    fun f flag hf => ⟨hf.numbers, ?_⟩⟩
  · rw [hr.size]
    exact FlagNames.lt_featureCount hn hk
  · exact hr.cell_iff hn hk rfl
  · exact hr.cell_iff hn hk hv
  · rw [hr.size]
    exact hf.numbers.lt_featureCount hn

/-- Four flags over two features, with a text between them that is no flag. -/
def casesTexts : List String :=
  ["@P.CASE.NOM@", "+Noun", "@U.NUM.SG@", "@R.CASE.ACC@", "@C.CASE@"]

/-- The second value of the feature is not the one that is set, and once it is unset the cell is zero again. -/
theorem run_represents_cases :
    ∃ answers row env, run Flag.test Flag.apply
        [.apply ⟨.positive, 0, 1, "@P.CASE.NOM@"⟩, .apply ⟨.unify, 1, 2, "@U.NUM.SG@"⟩,
          .test ⟨.requireValue, 0, 3, "@R.CASE.ACC@"⟩, .test ⟨.unify, 1, 2, "@U.NUM.SG@"⟩,
          .apply ⟨.clear, 0, 0, "@C.CASE@"⟩] #[0, 0] = (answers, row) ∧
      answers = [false, true] ∧ row = #[0, 2] ∧ (FlagNames.readAll casesTexts).Represents row env ∧
      env "CASE" = none ∧ env "NUM" = some "SG" := by
  have hpositive : FlagNames.ReadFrom casesTexts ⟨.positive, 0, 1, "@P.CASE.NOM@"⟩ ⟨.positive, "CASE", some "NOM"⟩ :=
    ⟨[], _, _, rfl, by decide +kernel, by decide +kernel⟩
  have hunify : FlagNames.ReadFrom casesTexts ⟨.unify, 1, 2, "@U.NUM.SG@"⟩ ⟨.unify, "NUM", some "SG"⟩ :=
    ⟨["@P.CASE.NOM@", "+Noun"], _, _, rfl, by decide +kernel, by decide +kernel⟩
  have hrequire : FlagNames.ReadFrom casesTexts ⟨.requireValue, 0, 3, "@R.CASE.ACC@"⟩
      ⟨.requireValue, "CASE", some "ACC"⟩ :=
    ⟨["@P.CASE.NOM@", "+Noun", "@U.NUM.SG@"], _, _, rfl, by decide +kernel, by decide +kernel⟩
  have hclear : FlagNames.ReadFrom casesTexts ⟨.clear, 0, 0, "@C.CASE@"⟩ ⟨.clear, "CASE", none⟩ :=
    ⟨["@P.CASE.NOM@", "+Noun", "@U.NUM.SG@", "@R.CASE.ACC@"], _, _, rfl, by decide +kernel, by decide +kernel⟩
  obtain ⟨_, answers, row, env, rfl, -, hrow, -, hr, hcells, -⟩ := run_represents
    (.cons (.apply hpositive) (.cons (.apply hunify) (.cons (.test hrequire) (.cons (.test hunify)
      (.cons (.apply hclear) .nil)))))
  have hcount : (FlagNames.readAll casesTexts).featureCount = 2 := by decide +kernel
  have hend : (answers, row) = ([false, true], #[0, 2]) := by
    rw [← hrow, hcount]
    decide +kernel
  cases hend
  refine ⟨_, _, env, by decide +kernel, rfl, rfl, hr, ?_, ?_⟩
  · exact (hcells "CASE" 0 (by decide +kernel)).2.1.1 rfl
  · exact ((hcells "NUM" 1 (by decide +kernel)).2.2 "SG" 2 (by decide +kernel)).1 rfl

end FlagCall

end LexicalTransducer
