import LexicalTransducer.Command.Options
import Mathlib.Data.List.Basic

/-!
# Kinds of arguments

What an argument has to look like to be of a kind (`Looks`), and that this is how arguments are classed
(`ofText_eq_iff`).
-/

namespace LexicalTransducer.Command

/-- The long name of an option. -/
def ValueOption.longName : ValueOption → String
  | .path => "--fst"
  | .orientation => "--orientation"
  | .maxDepth => "--max-depth"

/-- The names of an option. -/
def ValueOption.names : ValueOption → List String
  | .path => ["--fst", "-f"]
  | .orientation => ["--orientation"]
  | .maxDepth => ["--max-depth"]

def invertNames : List String := ["--invert", "-i"]

def generateNames : List String := ["--generate", "-g"]

def endMark : String := "--"

/-- A word is a dash, or it does not begin with one. -/
def IsWord (argument : String) : Prop :=
  argument = "-" ∨ argument.toList.head? ≠ some '-'

namespace Argument

/-- What the arguments of each kind look like that have a meaning. -/
inductive Looks : Argument → String → Prop
  | assigned (option : ValueOption) (value : String) :
      Looks (.assigned option value) (option.longName ++ "=" ++ value)
  | valued {option : ValueOption} {name : String} (h : name ∈ option.names) : Looks (.valued option) name
  | invert {name : String} (h : name ∈ invertNames) : Looks .invert name
  | generate {name : String} (h : name ∈ generateNames) : Looks .generate name
  | endOfOptions : Looks .endOfOptions endMark
  | positional {word : String} (h : IsWord word) : Looks .positional word

variable {name argument value : String} {option : ValueOption} {kind : Argument}

private theorem mem_longNames : (name, option) ∈ longNames ↔ name = option.longName := by
  cases option <;> simp [longNames, ValueOption.longName]

private theorem assignedValue?_eq_some :
    assignedValue? name argument = some value ↔ argument = name ++ "=" ++ value := by
  rw [assignedValue?, Option.map_eq_some_iff, ← String.toList_inj, String.toList_append (s := name ++ "=")]
  constructor
  · rintro ⟨cs, hcs, rfl⟩
    rw [String.toList_ofList]
    exact (List.isPrefixOf?_eq_some_iff_append_eq.1 hcs).symm
  · intro h
    exact ⟨_, List.isPrefixOf?_eq_some_iff_append_eq.2 h.symm, String.ofList_toList⟩

private theorem exists_of_findSome?_longNames
    (h : (longNames.findSome? fun (name, o) => (assignedValue? name argument).map (assigned o)) = some kind) :
    ∃ option value, kind = .assigned option value ∧ argument = option.longName ++ "=" ++ value := by
  obtain ⟨⟨name, option⟩, hmem, hkind⟩ := List.exists_of_findSome?_eq_some h
  obtain ⟨value, hvalue, rfl⟩ := Option.map_eq_some_iff.1 hkind
  rw [mem_longNames] at hmem
  exact ⟨option, value, rfl, hmem ▸ assignedValue?_eq_some.1 hvalue⟩

/-- What stands behind the long name of an option is no value for another one. -/
private theorem assignedValue?_longName (option option' : ValueOption) (value : String) :
    assignedValue? option.longName (option'.longName ++ "=" ++ value) =
      if option = option' then some value else none := by
  by_cases h : option = option'
  · rw [if_pos h, assignedValue?_eq_some, h]
  · rw [if_neg h]
    cases option <;> cases option' <;> simp [assignedValue?, ValueOption.longName, List.isPrefixOf?] at h ⊢

private theorem longNames_eq : longNames =
    [(ValueOption.path.longName, .path), (ValueOption.orientation.longName, .orientation),
      (ValueOption.maxDepth.longName, .maxDepth)] :=
  rfl

theorem ofText_assigned (option : ValueOption) (value : String) :
    ofText (option.longName ++ "=" ++ value) = .assigned option value := by
  have hfind : (longNames.findSome? fun (name, o) =>
      (assignedValue? name (option.longName ++ "=" ++ value)).map (assigned o)) = some (.assigned option value) := by
    simp only [longNames_eq, List.findSome?_cons, assignedValue?_longName]
    cases option <;> rfl
  unfold ofText
  rw [hfind]

/-- An argument of whatever kind looks like one of this kind, and one of no kind begins with a dash. -/
private theorem looks_ofText (argument : String) :
    Looks (ofText argument) argument ∨ ofText argument = .unknown ∧ ¬ IsWord argument := by
  unfold ofText
  split
  · rename_i kind hfind
    obtain ⟨option, value, rfl, rfl⟩ := exists_of_findSome?_longNames hfind
    exact .inl (.assigned option value)
  · split
    · rename_i option hlookup
      left
      obtain ⟨before, after, hnames, -⟩ := List.lookup_eq_some_iff.1 hlookup
      have hmem : (argument, option) ∈ longNames := by rw [hnames]; simp
      rw [mem_longNames.1 hmem]
      exact .valued (by cases option <;> simp [ValueOption.longName, ValueOption.names])
    · split
      · exact .inl (.valued (by simp [ValueOption.names]))
      · exact .inl (.invert (by simp [invertNames]))
      · exact .inl (.invert (by simp [invertNames]))
      · exact .inl (.generate (by simp [generateNames]))
      · exact .inl (.generate (by simp [generateNames]))
      · exact .inl .endOfOptions
      · exact .inl (.positional (.inl rfl))
      · rename_i hdash
        split
        · rename_i hhead
          exact .inr ⟨rfl, not_or.2 ⟨hdash, not_not.2 hhead⟩⟩
        · rename_i hhead
          exact .inl (.positional (.inr hhead))

private theorem Looks.eq_positional (h : Looks kind argument) (hhead : argument.toList.head? ≠ some '-') :
    kind = .positional := by
  have hnames : ∀ option : ValueOption, ∀ name ∈ option.names, name.toList.head? = some '-' := by
    intro option
    cases option <;> decide +kernel
  have hinvert : ∀ name ∈ invertNames, name.toList.head? = some '-' := by decide +kernel
  have hgenerate : ∀ name ∈ generateNames, name.toList.head? = some '-' := by decide +kernel
  cases h with
  | assigned option value => exact absurd (by cases option <;> simp [ValueOption.longName]) hhead
  | valued h => exact absurd (hnames _ _ h) hhead
  | invert h => exact absurd (hinvert _ h) hhead
  | generate h => exact absurd (hgenerate _ h) hhead
  | endOfOptions => exact absurd (by decide +kernel) hhead
  | positional h => rfl

private theorem ofText_of_isWord (h : IsWord argument) : ofText argument = .positional := by
  rcases h with rfl | hhead
  · decide +kernel
  · rcases looks_ofText argument with hlooks | ⟨-, hword⟩
    · exact hlooks.eq_positional hhead
    · exact absurd (.inr hhead) hword

theorem ofText_of_looks (h : Looks kind argument) : ofText argument = kind := by
  have hnames : ∀ option : ValueOption, ∀ name ∈ option.names, ofText name = .valued option := by
    intro option
    cases option <;> decide +kernel
  have hinvert : ∀ name ∈ invertNames, ofText name = .invert := by decide +kernel
  have hgenerate : ∀ name ∈ generateNames, ofText name = .generate := by decide +kernel
  cases h with
  | assigned option value => exact ofText_assigned option value
  | valued h => exact hnames _ _ h
  | invert h => exact hinvert _ h
  | generate h => exact hgenerate _ h
  | endOfOptions => decide +kernel
  | positional h => exact ofText_of_isWord h

theorem ofText_eq_iff (hkind : kind ≠ .unknown) : ofText argument = kind ↔ Looks kind argument := by
  constructor
  · rintro rfl
    exact (looks_ofText argument).resolve_right fun h => hkind h.1
  · exact ofText_of_looks

end Argument

end LexicalTransducer.Command
