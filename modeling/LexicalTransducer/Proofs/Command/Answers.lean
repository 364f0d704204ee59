import LexicalTransducer.Command.Program
import LexicalTransducer.Proofs.Report.RoundTrip
import LexicalTransducer.Proofs.Transducer.RoundTrip

/-!
# What a run prints is read back

A run that looks words up prints its answer to them (`outcome_of_looksUp`).  Its output is read back as the results of
these words, in their order (`read_output`).
-/

namespace LexicalTransducer

private theorem Transducer.length_of_lookupAll {t : Transducer} {direction : Direction} {inputs : List String}
    {groups : List (List String)} (h : t.lookupAll direction inputs = .ok groups) : groups.length = inputs.length := by
  cases direction with
  | analyze =>
    obtain ⟨analyses, ha, rfl⟩ := map_eq_ok.1 h
    rw [List.length_map, (mapM_eq_ok.1 ha).length_eq]
  | generate => exact (mapM_eq_ok.1 h).length_eq.symm

namespace Command

/-- What is loaded does not depend on the words. -/
private theorem load_withWords (gunzip : Gunzip) (o : Options) (words : List String) (path : String)
    (file : Except String ByteArray) : load gunzip { o with words } path file = load gunzip o path file :=
  rfl

/-- What a run finds outside: what unpacks gzip members, files, its input, the environment variable and the command
line. -/
structure Surroundings where
  gunzip : Gunzip
  file : String → Except String ByteArray
  input : ByteArray
  environment : Option String
  arguments : List String

namespace Surroundings

/-- What a run in these surroundings leaves behind. -/
def outcome (s : Surroundings) : Outcome :=
  Id.run (run s.gunzip (fun path => pure (s.file path)) (pure s.input) s.environment s.arguments)

/-- The words that a run with these options looks up. -/
def wordsFor (s : Surroundings) (o : Options) : List String :=
  if o.words.isEmpty then (wordsOfInput s.input).1 else o.words

/-- A run in these surroundings looks these words up in this transducer. -/
structure LooksUp (s : Surroundings) (t : Transducer) (direction : Direction) (words : List String) : Prop where
  no_help : wantsHelp s.arguments = false
  exists_options : ∃ o path, Options.ofArguments s.environment s.arguments = .ok o ∧ o.path = some path ∧
    load s.gunzip o path (s.file path) = .ok t ∧ o.direction = direction ∧ s.wordsFor o = words

variable {s : Surroundings} {t : Transducer} {direction : Direction} {words : List String}

theorem outcome_of_looksUp (h : s.LooksUp t direction words) :
    ∃ errors, s.outcome = answer t direction words errors := by
  obtain ⟨o, path, ho, hpath, hload, rfl, rfl⟩ := h.exists_options
  have hrun : s.outcome = if o.words.isEmpty then
      answer t o.direction (wordsOfInput s.input).1 (wordsOfInput s.input).2 else answer t o.direction o.words [] := by
    simp only [outcome, run, h.no_help, Bool.false_eq_true, ↓reduceIte, ho, hpath, pure_bind, hload]
    split <;> rfl
  rw [hrun, wordsFor]
  split
  · exact ⟨_, rfl⟩
  · exact ⟨_, rfl⟩

end Surroundings

variable {t : Transducer} {direction : Direction} {words : List String} {groups : List (List String)}

private theorem output_answer (h : t.lookupAll direction words = .ok groups) (errors : List String) :
    (answer t direction words errors).output = Report.print words groups := by
  rw [answer, h]

/-- What is printed for these words, and so what a run prints that looks them up, is read back as their results: a
result with the marker in it as the empty text, and no results as one that is empty.  A blank word has to have
results that are not, for else its lines would end the group before it. -/
theorem read_output (hgroups : t.lookupAll direction words = .ok groups)
    (hwords : ∀ w ∈ words, '\t' ∉ w.toList ∧ '\n' ∉ w.toList)
    (hvisible : ∀ p ∈ words.zip groups, Text.isBlankLine p.1 = true → ∀ r ∈ p.2, Text.isBlankLine r = false)
    (hresults : ∀ g ∈ groups, ∀ r ∈ g, '\t' ∉ r.toList ∧ '\n' ∉ r.toList ∧ r.toList.getLast? ≠ some '\r') :
    (∀ errors, Report.read words (answer t direction words errors).output = .ok (groups.map Report.readBack)) ∧
    ∀ s : Surroundings, s.LooksUp t direction words →
      Report.read words s.outcome.output = .ok (groups.map Report.readBack) := by
  have hlegible : ∀ p ∈ words.zip groups, Report.IsLegible p.1 p.2 := by
    intro p hp
    obtain ⟨hw, hg⟩ := List.of_mem_zip hp
    exact ⟨hwords _ hw, hresults _ hg, hvisible p hp⟩
  have hread := Report.read_print (Transducer.length_of_lookupAll hgroups) hlegible
  have hanswer : ∀ errors, Report.read words (answer t direction words errors).output =
      .ok (groups.map Report.readBack) := by
    intro errors
    rw [output_answer hgroups, hread]
  refine ⟨hanswer, fun s hs => ?_⟩
  obtain ⟨errors, he⟩ := Surroundings.outcome_of_looksUp hs
  rw [he, hanswer errors]

/-- A run over the tagged net that looks up a word twice, and the marker. -/
def taggedRun : Surroundings where
  gunzip _ := .error "invalid gzip header"
  file _ := .ok Transducer.taggedText.toUTF8
  input := .empty
  environment := none
  arguments := ["-f", "tagged.att", "--", "a", "a", "+?"]

theorem load_tagged :
    load taggedRun.gunzip { path := some "tagged.att" } "tagged.att" (taggedRun.file "tagged.att") =
      .ok Transducer.tagged := by
  decide +kernel

private theorem looksUp_taggedRun : taggedRun.LooksUp Transducer.tagged .analyze ["a", "a", "+?"] := by
  refine ⟨by decide +kernel, { path := some "tagged.att", words := ["a", "a", "+?"] }, "tagged.att", ?_, rfl,
    (load_withWords _ { path := some "tagged.att" } ..).trans load_tagged, rfl, rfl⟩
  decide +kernel

private theorem lookupAll_tagged :
    Transducer.tagged.lookupAll .analyze ["a", "a", "+?"] = .ok [["a+N"], ["a+N"], []] := by
  have hinitial : Transducer.tagged.initial? = some 0 := by
    rw [Transducer.initial?, ← Std.ExtTreeSet.head?_toList]
    decide +kernel
  have hfound : (Transducer.tagged.analyze "a").outputs = [.ok [3, 4]] :=
    Transducer.outputs_of_itemsWithin (n := 30) hinitial Transducer.split_tagged.1 (by decide +kernel)
  have hmissed : (Transducer.tagged.analyze "+?").outputs = [] := by
    have hsplit : Transducer.tagged.symbols.split "+?" = .error ⟨"+?", 0⟩ := by
      have hlong : Transducer.tagged.symbols.longestText = 2 := by decide +kernel
      have hnone : Transducer.tagged.symbols.longestMatch? ['+', '?'] 2 = none := by decide +kernel
      have hchars : "+?".toList = ['+', '?'] := by decide +kernel
      simp [SymbolTable.split, hchars, hlong, SymbolTable.splitFrom, hnone]
    exact Transducer.outputs_lookup_of_error hsplit
  have ha : (Transducer.tagged.analyze "a").values = .ok [["a", "+N"]] := by
    rw [Results.values, Results.toList_eq, hfound]
    decide +kernel
  have hmarker : (Transducer.tagged.analyze "+?").values = .ok [] := by
    rw [Results.values, Results.toList_eq, hmissed]
    rfl
  exact map_eq_ok.2 ⟨_, mapM_eq_ok.2 (.cons ha (.cons ha (.cons hmarker .nil))), by decide +kernel⟩

/-- The word that is looked up twice has its group twice, and the marker as a word has no results. -/
theorem read_taggedRun : taggedRun.LooksUp Transducer.tagged .analyze ["a", "a", "+?"] ∧
    Report.read ["a", "a", "+?"] taggedRun.outcome.output = .ok [["a+N"], ["a+N"], [""]] := by
  have hread := (read_output lookupAll_tagged (by decide +kernel) (by decide +kernel) (by decide +kernel)).2 _
    looksUp_taggedRun
  refine ⟨looksUp_taggedRun, hread.trans ?_⟩
  decide +kernel

end Command

end LexicalTransducer
