import LexicalTransducer.Graph.Arc
import LexicalTransducer.Proofs.Symbol.Order

/-!
# Which numbers are epsilon

A table finds epsilon under a number that is defined with its text, and under number zero as long as that is not
defined (`Builder.get?_finish_eq_epsilon`).  Number zero alone is epsilon exactly if the definitions keep the number and
the text for each other (`KeepsEpsilon`), and this is not asked of them.
-/

namespace LexicalTransducer

namespace Symbol

variable {names names' : FlagNames} {text : String} {s : Symbol}

private theorem ofText_epsilonText (names : FlagNames) : ofText names epsilonText = (.ok epsilon, names) :=
  if_pos rfl

private theorem eq_epsilon_iff (h : ofText names text = (.ok s, names')) : s = epsilon ↔ text = epsilonText := by
  obtain ⟨-, htext⟩ := grows_ofText h
  constructor
  · rintro rfl
    exact htext.symm
  · rintro rfl
    rw [ofText_epsilonText] at h
    cases h
    rfl

end Symbol

private theorem not_isOrdinaryText_epsilonText : ¬ IsOrdinaryText Symbol.epsilonText := by
  rintro ⟨names, s, names', hof, hs⟩
  rw [(Symbol.eq_epsilon_iff hof).2 rfl] at hs
  cases hs

/-- The definitions give number zero to the text of epsilon only, and this text no other number. -/
def KeepsEpsilon (entries : List (Int × String)) : Prop :=
  ∀ e ∈ entries, e.1 = Symbol.epsilonId ↔ e.2 = Symbol.epsilonText

instance (entries : List (Int × String)) : Decidable (KeepsEpsilon entries) :=
  inferInstanceAs (Decidable (∀ e ∈ entries, _))

namespace SymbolTable

private theorem get?_of_none {t : SymbolTable} {id : Nat} (h : t.symbols[id]? = none) :
    t.get? id = if id = Symbol.epsilonId then some .epsilon else none := by
  rw [get?, h]

namespace Builder

variable {b : Builder} {entries : List (Int × String)} {id : Nat} {text : String}

theorem get?_finish_eq_epsilon (h : Steps Defines {} entries b) (id : Nat) : b.finish.get? id = some .epsilon ↔
    ((id : Int), Symbol.epsilonText) ∈ entries ∨ id = Symbol.epsilonId ∧ ∀ text, ((id : Int), text) ∉ entries := by
  have hb := holds_of_steps h
  have hnodup := (exists_steps_defines_iff.1 ⟨b, h⟩).nodup
  cases hs : b.symbols[id]? with
  | none =>
    have hfree : ∀ text, ((id : Int), text) ∉ entries := by
      intro text hin
      obtain ⟨s, hs'⟩ := hb.exists_symbol hin
      rw [hs] at hs'
      cases hs'
    rw [get?_of_none hs]
    simp [hfree]
  | some s =>
    obtain ⟨text, m, m₁, hin, hof, -⟩ := hb.symbol hs
    have hbound : ¬ ∀ text, ((id : Int), text) ∉ entries := fun hfree => hfree text hin
    have htext : ((id : Int), Symbol.epsilonText) ∈ entries ↔ text = Symbol.epsilonText := by
      refine ⟨fun hin' => eq_of_mem_of_nodup hnodup hin hin', ?_⟩
      rintro rfl
      exact hin
    rw [get?_of_some hs, Option.some.injEq, Symbol.eq_epsilon_iff hof, htext]
    simp [hbound]

/-- Number zero and no other is epsilon exactly if the definitions keep it so. -/
theorem get?_finish_eq_epsilon_iff (h : Steps Defines {} entries b) :
    (∀ id, b.finish.get? id = some .epsilon ↔ id = Symbol.epsilonId) ↔ KeepsEpsilon entries := by
  have halphabet := exists_steps_defines_iff.1 ⟨b, h⟩
  simp only [get?_finish_eq_epsilon h]
  constructor
  · rintro hall ⟨code, text⟩ hin
    obtain ⟨id, rfl⟩ := Int.eq_ofNat_of_zero_le (halphabet.codes _ hin).1
    show (id : Int) = Symbol.epsilonId ↔ text = Symbol.epsilonText
    rw [Int.natCast_inj, ← hall id]
    constructor
    · rintro (hin' | ⟨-, hfree⟩)
      · exact eq_of_mem_of_nodup halphabet.nodup hin hin'
      · exact absurd hin (hfree text)
    · rintro rfl
      exact .inl hin
  · intro hkeeps id
    constructor
    · rintro (hin | ⟨hid, -⟩)
      · exact Int.natCast_inj.1 ((hkeeps _ hin).2 rfl)
      · exact hid
    · intro hid
      by_cases hfree : ∀ text, ((id : Int), text) ∉ entries
      · exact .inr ⟨hid, hfree⟩
      · obtain ⟨text, hin⟩ := not_forall_not.1 hfree
        have htext : text = Symbol.epsilonText := (hkeeps _ hin).1 (congrArg _ hid)
        exact .inl (htext ▸ hin)

/-- A label is shown as epsilon exactly if it is bound to epsilon. -/
theorem labelText_eq_epsilonText_iff (h : Steps Defines {} entries b) :
    Arc.labelText b.finish id = Symbol.epsilonText ↔ b.finish.get? id = some .epsilon := by
  rw [Arc.labelText]
  cases hs : b.finish.get? id with
  | none =>
    have hsign : "#" ++ toString id ≠ Symbol.epsilonText := by
      intro heq
      have hfirst : ("#" ++ toString id).toList.head? = some '#' := by
        rw [String.toList_append]
        rfl
      rw [heq] at hfirst
      exact absurd hfirst (by decide +kernel)
    exact ⟨fun heq => absurd heq hsign, (by cases ·)⟩
  | some s =>
    show s.text = Symbol.epsilonText ↔ some s = some .epsilon
    rw [Option.some.injEq]
    cases hbound : b.symbols[id]? with
    | none =>
      rw [get?_of_none hbound, Option.ite_none_right_eq_some, Option.some.injEq] at hs
      rw [← hs.2]
      exact ⟨fun _ => rfl, fun _ => rfl⟩
    | some s' =>
      obtain ⟨text, m, m₁, -, hof, -⟩ := (holds_of_steps h).symbol hbound
      cases hs.symm.trans (get?_of_some hbound)
      rw [Symbol.eq_epsilon_iff hof, (Symbol.grows_ofText hof).2]

/-- No input is split into epsilon where the definitions keep its number for its text. -/
theorem ne_epsilonId_of_mem_split (h : Steps Defines {} entries b) (hkeeps : KeepsEpsilon entries) {ids : List Nat}
    (hsplit : b.finish.split text = .ok ids) : Symbol.epsilonId ∉ ids := by
  intro hid
  obtain ⟨pieces, hpieces, -⟩ := exists_pieces_of_splitFrom (splitFrom_of_split hsplit)
  obtain ⟨piece, hcode⟩ := exists_code?_of_mem hpieces hid
  obtain ⟨hin, hordinary⟩ := (holds_of_steps h).code hcode
  obtain rfl : piece = Symbol.epsilonText := (hkeeps _ hin).1 rfl
  exact not_isOrdinaryText_epsilonText hordinary

end Builder

end SymbolTable

end LexicalTransducer
