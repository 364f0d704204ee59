import LexicalTransducer.Proofs.Command.Answers
import LexicalTransducer.Proofs.Command.Items

/-!
# Who asks for help

An argument stands where an option may stand, or it is the value of an option, or it stands behind the end of the
options (`places`).  Help is printed for any argument that is a name of it, wherever it stands (`onlyHelps_iff`), and so
words behind the end of the options are looked up exactly if none of them is such a name (`onlyHelps_of_places`).
-/

namespace LexicalTransducer.Command

def helpNames : List String := ["-h", "--help"]

/-- The names of all options that take a value. -/
def valueNames : List String :=
  [ValueOption.path, .orientation, .maxDepth].flatMap ValueOption.names

/-- What an argument may be by its place. -/
inductive Place
  | option
  /-- The value of the option in front of it. -/
  | value
  /-- A word behind the end of the options. -/
  | operand
deriving DecidableEq, Repr

/-- The arguments with their places. -/
def places : List String → List (String × Place)
  | [] => []
  | [argument] => [(argument, .option)]
  | argument :: next :: rest =>
    if argument = endMark then (argument, .option) :: (next :: rest).map ((·, .operand))
    else if argument ∈ valueNames then (argument, .option) :: (next, .value) :: places rest
    else (argument, .option) :: places (next :: rest)

/-- An option asks for help. -/
def AsksForHelp (arguments : List String) : Prop :=
  ∃ name ∈ helpNames, (name, .option) ∈ places arguments

/-- A value or a word behind the end of the options is a name of help. -/
def HidesHelp (arguments : List String) : Prop :=
  ∃ name ∈ helpNames, (name, .value) ∈ places arguments ∨ (name, .operand) ∈ places arguments

instance : DecidablePred AsksForHelp := fun _ => inferInstanceAs (Decidable (∃ _ ∈ _, _))

instance : DecidablePred HidesHelp := fun _ => inferInstanceAs (Decidable (∃ _ ∈ _, _))

variable {arguments : List String}

private theorem map_fst_places (arguments : List String) : (places arguments).map Prod.fst = arguments := by
  fun_induction places arguments with
  | case1 => rfl
  | case2 => rfl
  | case3 => simp [Function.comp_def]
  | case4 _ _ _ _ _ ih => simp [ih]
  | case5 _ _ _ _ _ ih => simp [ih]

private theorem mem_of_mem_places {argument : String} {place : Place} (h : (argument, place) ∈ places arguments) :
    argument ∈ arguments := by
  rw [← map_fst_places arguments]
  exact List.mem_map_of_mem h

private theorem wantsHelp_iff_exists : wantsHelp arguments = true ↔ ∃ a ∈ arguments, a ∈ helpNames := by
  have hname : ∀ a : String, (a == "--help" || a == "-h") = true ↔ a ∈ helpNames := by
    intro a
    rw [Bool.or_eq_true, beq_iff_eq, beq_iff_eq, helpNames, List.mem_pair, or_comm]
  simp only [wantsHelp, List.any_eq_true, hname]

/-- Help is wanted by an option, or by what is none. -/
private theorem wantsHelp_iff : wantsHelp arguments = true ↔ AsksForHelp arguments ∨ HidesHelp arguments := by
  rw [wantsHelp_iff_exists]
  constructor
  · rintro ⟨name, hmem, hhelp⟩
    rw [← map_fst_places arguments] at hmem
    obtain ⟨⟨_, place⟩, hplace, rfl⟩ := List.mem_map.1 hmem
    cases place with
    | option => exact .inl ⟨_, hhelp, hplace⟩
    | value => exact .inr ⟨_, hhelp, .inl hplace⟩
    | operand => exact .inr ⟨_, hhelp, .inr hplace⟩
  · rintro (⟨name, hhelp, hplace⟩ | ⟨name, hhelp, hplace | hplace⟩) <;>
      exact ⟨name, mem_of_mem_places hplace, hhelp⟩

/-! ### What a run does -/

namespace Surroundings

variable {s : Surroundings} {t : Transducer}

/-- A run in these surroundings prints the help and looks nothing up. -/
def OnlyHelps (s : Surroundings) : Prop :=
  s.outcome = { output := helpText } ∧ ∀ t direction words, ¬ s.LooksUp t direction words

/-- A run that has no name of help among its arguments fails, or it looks words up. -/
private theorem outcome_of_not_wantsHelp (h : wantsHelp s.arguments = false) :
    (∃ message, s.outcome = failure [] message) ∨ ∃ t direction words, s.LooksUp t direction words := by
  cases ho : Options.ofArguments s.environment s.arguments with
  | error e =>
    left
    exact ⟨e.message, by simp only [outcome, run, h, ho]; rfl⟩
  | ok o =>
    cases hpath : o.path with
    | none =>
      left
      exact ⟨_, by simp only [outcome, run, h, ho, hpath]; rfl⟩
    | some path =>
      cases hload : load s.gunzip o path (s.file path) with
      | error message =>
        left
        exact ⟨message, by simp only [outcome, run, h, ho, hpath, pure_bind, hload]; rfl⟩
      | ok t =>
        right
        exact ⟨t, o.direction, s.wordsFor o, h, o, path, ho, hpath, hload, rfl, rfl⟩

theorem onlyHelps_iff : s.OnlyHelps ↔ wantsHelp s.arguments = true := by
  constructor
  · rintro ⟨heq, hnone⟩
    by_contra hno
    rcases outcome_of_not_wantsHelp (Bool.eq_false_of_not_eq_true hno) with ⟨message, h⟩ | ⟨t, direction, words, h⟩
    · cases congrArg Outcome.exitCode (h.symm.trans heq)
    · exact hnone t direction words h
  · intro h
    refine ⟨?_, fun t direction words hlookup => ?_⟩
    · simp only [outcome, run, h]
      rfl
    · exact absurd (h.symm.trans hlookup.no_help) (by decide)

/-- Words behind the end of the options are looked up if no argument is a name of help. -/
private theorem looksUp_of_operands {args words : List String} {o : Options} {path : String}
    (hargs : s.arguments = args ++ endMark :: words) (hwords : words ≠ []) (hend : endMark ∉ args)
    (hread : Options.readArguments {} args = .ok o) (hpath : o.path = some path)
    (hload : load s.gunzip o path (s.file path) = .ok t) (hhelp : wantsHelp s.arguments = false) :
    s.LooksUp t o.direction (o.words ++ words) := by
  obtain ⟨items, operands, rfl⟩ := Options.exists_commandLine hread
  cases operands with
  | some words' => exact absurd (List.mem_append_right _ (List.mem_cons_self ..)) hend
  | none =>
    rw [Options.readArguments_commandLine, Except.ok.injEq] at hread
    subst hread
    have hwords' : (Options.ofItems items (some words)).words = (Options.ofItems items none).words ++ words := by
      simp [Options.ofItems]
    have hread : Options.ofArguments s.environment s.arguments = .ok (Options.ofItems items (some words)) := by
      rw [hargs, ← Options.withDefaultPath_of_path (o := Options.ofItems items (some words)) hpath s.environment]
      show (Options.readArguments {} (commandLine items (some words)) >>= fun o => .ok (o.withDefaultPath _)) = _
      rw [Options.readArguments_commandLine]
      rfl
    refine ⟨hhelp, Options.ofItems items (some words), path, hread, hpath, hload, rfl, ?_⟩
    rw [wordsFor, hwords', if_neg (by simp [hwords])]

/-- The help alone is printed for any argument that is a name of it, also for a value and for a word behind the end of
the options.  Behind options that name a file, words are looked up exactly if none of them is such a name. -/
theorem onlyHelps_of_places (s : Surroundings) :
    (s.OnlyHelps ↔ AsksForHelp s.arguments ∨ HidesHelp s.arguments) ∧
    ∀ args words o path t, s.arguments = args ++ endMark :: words → words ≠ [] →
      (∀ a ∈ args, a ∉ helpNames ∧ a ≠ endMark) → Options.readArguments {} args = .ok o → o.path = some path →
      load s.gunzip o path (s.file path) = .ok t →
      ((∃ w ∈ words, w ∈ helpNames) → s.OnlyHelps) ∧
      ((∀ w ∈ words, w ∉ helpNames) → s.LooksUp t o.direction (o.words ++ words) ∧
        ∃ errors, s.outcome = answer t o.direction (o.words ++ words) errors) := by
  refine ⟨onlyHelps_iff.trans wantsHelp_iff, fun args words o path t hargs hwords hplain hread hpath hload => ?_⟩
  have hhelp : wantsHelp s.arguments = true ↔ ∃ w ∈ words, w ∈ helpNames := by
    rw [wantsHelp_iff_exists, hargs]
    constructor
    · rintro ⟨a, ha, hname⟩
      rcases List.mem_append.1 ha with ha | ha
      · exact absurd hname (hplain a ha).1
      · rcases List.mem_cons.1 ha with rfl | ha
        · exact absurd hname (by decide)
        · exact ⟨a, ha, hname⟩
    · rintro ⟨w, hw, hname⟩
      exact ⟨w, List.mem_append_right _ (List.mem_cons_of_mem _ hw), hname⟩
  refine ⟨fun hsome => onlyHelps_iff.2 (hhelp.2 hsome), fun hnone => ?_⟩
  have hquiet : wantsHelp s.arguments = false := by
    rw [Bool.eq_false_iff, ne_eq, hhelp]
    rintro ⟨w, hw, hname⟩
    exact hnone w hw hname
  have hlookup := looksUp_of_operands hargs hwords (fun h => (hplain _ h).2 rfl) hread hpath hload hquiet
  exact ⟨hlookup, outcome_of_looksUp hlookup⟩

/-- A run that looks up a word that is a name of an option. -/
def guarded : Surroundings :=
  { taggedRun with arguments := ["-f", "tagged.att", "--", "a", "-g"] }

theorem looksUp_guarded : guarded.LooksUp Transducer.tagged .analyze ["a", "-g"] :=
  ((onlyHelps_of_places guarded).2 ["-f", "tagged.att"] ["a", "-g"] { path := some "tagged.att" } "tagged.att"
    Transducer.tagged rfl (by decide) (by decide) (by decide +kernel) rfl load_tagged).2 (by decide) |>.1

/-- A run that should look up a word that is a name of help. -/
def hidden : Surroundings :=
  { taggedRun with arguments := ["-f", "tagged.att", "--", "-h"] }

/-- No option asks for help, and the options in front of the word are those of a run that looks words up, but the help
is all that is printed. -/
theorem onlyHelps_hidden : hidden.OnlyHelps ∧ ¬ AsksForHelp hidden.arguments ∧
    hidden.arguments = ["-f", "tagged.att"] ++ endMark :: ["-h"] ∧
    (∀ a ∈ ["-f", "tagged.att"], a ∉ helpNames ∧ a ≠ endMark) ∧
    Options.readArguments {} ["-f", "tagged.att"] = .ok { path := some "tagged.att" } ∧
    load hidden.gunzip { path := some "tagged.att" } "tagged.att" (hidden.file "tagged.att") =
      .ok Transducer.tagged :=
  ⟨onlyHelps_iff.2 (by decide +kernel), by decide +kernel, rfl, by decide, by decide +kernel, load_tagged⟩

end Surroundings

end LexicalTransducer.Command
