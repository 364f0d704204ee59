import LexicalTransducer.Proofs.Net.Linked

/-!
# What the sections of a text say

Of a text that is read, the alphabet and the states section are all that a lookup goes by (`HasSections`).  A text
that says this with its sections is read as what they add up to (`sections_of_ofText`), whatever its properties and
its blank lines are.
-/

namespace LexicalTransducer.Net

/-- Without its blank lines the text is the lines of a net, with an alphabet and a states section that say this. -/
def HasSections (text : String) (entries : List (Int × String)) (lines : List StateLine) : Prop :=
  ∃ property sigma, List.Forall₂ (fun l e => sigmaLine l = .ok e) sigma entries ∧
    HasStates text ([Section.net.line, Section.props.line, property, Section.sigma.line] ++ sigma) lines

variable {text : String} {orientation : Orientation} {net : Net}

/-- A text that is read has an alphabet and a states section, and it is read as what these say. -/
theorem sections_of_ofText (h : ofText text orientation = .ok net) : (∃ entries lines, HasSections text entries lines) ∧
    ∀ entries lines, HasSections text entries lines → ∃ ps b s, Steps SymbolTable.Builder.Defines {} entries b ∧
      Steps (StatesSection.Adds orientation b) {} lines s ∧ net = ofSections orientation ps b s := by
  obtain ⟨start, lines, ps, b, s, hhas, hopens, hadds, rfl⟩ := ofText_eq_ok_iff.1 h
  have hunique : ∀ start' lines', HasStates text start' lines' → start' = start ∧ lines' = lines :=
    fun _ _ => HasStates.unique hopens hhas
  obtain ⟨property, sigma, entries, rfl, -, hread, hdefines⟩ := hopens
  refine ⟨⟨entries, lines, property, sigma, hread.imp fun _ _ h => h.2, hhas⟩, ?_⟩
  rintro entries' lines' ⟨property', sigma', hread', hhas'⟩
  obtain ⟨hstart, rfl⟩ := hunique _ _ hhas'
  obtain ⟨-, rfl⟩ := List.append_inj hstart rfl
  -- one line says one thing
  have hentries : entries' = entries :=
    List.right_unique_forall₂' (fun l e e' he he' => Except.ok.inj (he.symm.trans he')) hread'
      (hread.imp fun _ _ h => h.2)
  exact ⟨ps, b, s, hentries ▸ hdefines, hadds, rfl⟩

end LexicalTransducer.Net
