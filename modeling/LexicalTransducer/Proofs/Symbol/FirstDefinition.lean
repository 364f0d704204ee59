import LexicalTransducer.Proofs.Symbol.Order

/-!
# The first definition of a text

A definition that fails leaves the table as it is, and more can follow.  So a finished table holds what the accepted
ones say, and a character or a tag has the number of the first of these with its text (`code?_tableOf`).
-/

namespace LexicalTransducer

variable {text : String}

theorem isOrdinaryText_iff {names names' : FlagNames} {s : Symbol} (h : Symbol.ofText names text = (.ok s, names')) :
    IsOrdinaryText text ↔ s.isOrdinary = true := by
  constructor
  · rintro ⟨m, s', m', hof, hs'⟩
    have hsame := Symbol.sameNamed_of_ofText hof h (.refl _) (.refl _)
    rwa [hsame.isOrdinary_eq]
  · exact fun hs => ⟨names, s, names', h, hs⟩

theorem IsOrdinaryText.ne_empty (h : IsOrdinaryText text) : text ≠ "" := by
  rintro rfl
  obtain ⟨names, s, names', hof, -⟩ := h
  have hempty : Symbol.ofText names "" = (.error .empty, names) := by
    unfold Symbol.ofText
    rw [if_neg (by decide +kernel), if_neg (by decide +kernel), if_neg (by decide +kernel)]
    rfl
  cases hempty.symm.trans hof

namespace SymbolTable

namespace Builder

variable {b b' : Builder} {e : Int × String} {fault : NetFault}

/-- The table under construction behind some definitions, the faulty ones among them. -/
def built (b : Builder) : List (Int × String) → Builder
  | [] => b
  | e :: calls => (b.define e.1 e.2).2.built calls

/-- The definitions that are accepted, with their numbers. -/
def accepted (b : Builder) : List (Int × String) → List (Nat × String)
  | [] => []
  | e :: calls =>
    match b.define e.1 e.2 with
    | (.ok (), b') => (e.1.toNat, e.2) :: b'.accepted calls
    | (.error _, b') => b'.accepted calls

/-- Where all definitions are accepted, the table is that of the row of them. -/
theorem built_of_steps {calls : List (Int × String)} (h : Steps Defines b calls b') : b.built calls = b' := by
  induction h with
  | nil => rfl
  | cons hd _ ih =>
    rw [built, hd]
    exact ih

/-- A definition that fails leaves all symbols and texts as they are. -/
theorem define_error (h : b.define e.1 e.2 = (.error fault, b')) : b'.symbols = b.symbols ∧ b'.codes = b.codes := by
  unfold define at h
  split at h
  · cases h
    exact ⟨rfl, rfl⟩
  · split at h
    · cases h
      exact ⟨rfl, rfl⟩
    · split at h
      · cases h
        exact ⟨rfl, rfl⟩
      · cases h

/-- The texts of a table have the numbers that these definitions give them first. -/
structure Keeps (b : Builder) (defined : List (Nat × String)) : Prop where
  faithful : b.finish.IsFaithful
  ordinary : ∀ {text}, IsOrdinaryText text → b.codes[text]? = (defined.find? (·.2 == text)).map (·.1)
  other : ∀ {text}, ¬ IsOrdinaryText text → b.codes[text]? = none

variable {defined : List (Nat × String)}

private theorem keeps_start : Keeps {} [] where
  faithful := isFaithful_start
  ordinary _ := by simp
  other _ := by simp

private theorem Keeps.define_error (h : b.Keeps defined) (he : b.define e.1 e.2 = (.error fault, b')) :
    b'.Keeps defined := by
  obtain ⟨hsymbols, hcodes⟩ := Builder.define_error he
  refine ⟨?_, ?_, ?_⟩
  · intro text id hid
    show ∃ s, b'.symbols[id]? = some s ∧ _
    rw [hsymbols]
    exact h.faithful text id (by rwa [code?, finish, ← hcodes])
  · rw [hcodes]
    exact h.ordinary
  · rw [hcodes]
    exact h.other

private theorem Keeps.define_ok (h : b.Keeps defined) (hd : b.define e.1 e.2 = (.ok (), b')) :
    b'.Keeps (defined ++ [(e.1.toNat, e.2)]) := by
  have hfaithful := isFaithful_define h.faithful hd
  obtain ⟨id, s, names, hw, -, hof, rfl⟩ := define_eq_ok.1 hd
  obtain ⟨-, htext⟩ := Symbol.grows_ofText hof
  have hs := isOrdinaryText_iff hof
  have hid : e.1.toNat = id := by rw [(word32?_eq_some.1 hw).1, Int.toNat_natCast]
  refine ⟨hfaithful, ?_, ?_⟩
  · intro text hordinary
    rw [getElem?_codes_bind, htext, hid, List.find?_append]
    show (if _ ∧ _ ∧ b.codes[text]? = none then _ else b.codes[text]?) = _
    rw [h.ordinary hordinary]
    cases hfound : defined.find? (·.2 == text) with
    | some first => simp
    | none =>
      by_cases ht : e.2 = text
      · subst ht
        simp [hs.1 hordinary]
      · simp [ht]
  · intro text hother
    rw [getElem?_codes_bind, htext, if_neg]
    · exact h.other hother
    · rintro ⟨hs', rfl, -⟩
      exact hother (hs.2 hs')

private theorem Keeps.built (h : b.Keeps defined) (calls : List (Int × String)) :
    (b.built calls).Keeps (defined ++ b.accepted calls) := by
  induction calls generalizing b defined with
  | nil => rwa [Builder.built, accepted, List.append_nil]
  | cons e calls ih =>
    rw [Builder.built, accepted]
    rcases hd : b.define e.1 e.2 with ⟨_ | _, b'⟩
    · exact ih (h.define_error hd)
    · rw [List.append_cons]
      exact ih (h.define_ok hd)

end Builder

/-- The finished table of some definitions. -/
def tableOf (calls : List (Int × String)) : SymbolTable :=
  (Builder.built {} calls).finish

theorem isFaithful_tableOf (calls : List (Int × String)) : (tableOf calls).IsFaithful :=
  (Builder.keeps_start.built calls).faithful

/-- A text has the number of the first accepted definition with it, if it names a character or a tag. -/
theorem code?_tableOf (calls : List (Int × String)) (text : String) (id : Nat) :
    (tableOf calls).code? text = some id ↔
      IsOrdinaryText text ∧ (Builder.accepted {} calls).find? (·.2 == text) = some (id, text) := by
  have hkeeps := Builder.keeps_start.built calls
  rw [List.nil_append] at hkeeps
  show (Builder.built {} calls).codes[text]? = some id ↔ _
  by_cases hordinary : IsOrdinaryText text
  · rw [hkeeps.ordinary hordinary, Option.map_eq_some_iff, and_iff_right hordinary]
    constructor
    · rintro ⟨⟨id', text'⟩, hfound, rfl⟩
      have htext := List.find?_some hfound
      rw [hfound]
      exact congrArg (fun t => some (id', t)) (eq_of_beq htext)
    · exact fun hfound => ⟨_, hfound, rfl⟩
  · constructor
    · intro hcode
      cases (hkeeps.other hordinary).symm.trans hcode
    · exact fun h => absurd h.1 hordinary

theorem code?_tableOf_empty (calls : List (Int × String)) : (tableOf calls).code? "" = none := by
  by_contra hne
  obtain ⟨id, hid⟩ := Option.ne_none_iff_exists'.1 hne
  exact ((code?_tableOf calls "" id).1 hid).1.ne_empty rfl

end SymbolTable

end LexicalTransducer
