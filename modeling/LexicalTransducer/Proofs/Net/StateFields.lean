import LexicalTransducer.Net.StateLine
import LexicalTransducer.Proofs.Outcome
import LexicalTransducer.Proofs.Text.Decimal
import LexicalTransducer.Proofs.Text.Tokens

/-!
# Fields of the states section

What a line of the states section says is laid out as two to five numbers (`HasFields`).  A line with these numbers
between any blanks is read as what they say.  Every other line has too few or too many tokens, or one that is no number,
and the first of these is reported; if it has not, its numbers are a layout but for the mark of a final state
(`ofLine_tokens`).
-/

namespace LexicalTransducer

/-! ### Numbers -/

namespace NetField

/-- A token is a numeral of a signed 64-bit word. -/
def IsInteger (token : String) : Prop :=
  ∃ n, Text.Spells token.toList n ∧ Text.IsInt64 n

variable {token : String} {tokens : List String} {n : Int} {ns : List Int}

private theorem integer_eq_ok : integer token = .ok n ↔ Text.Spells token.toList n ∧ Text.IsInt64 n := by
  rw [← Text.int64?_eq_some, integer]
  cases Text.int64? token with
  | none => simp
  | some m => simp

private theorem integer_of_not_isInteger (h : ¬ IsInteger token) : integer token = .error (.invalidInteger token) := by
  have hnone : Text.int64? token = none :=
    Option.eq_none_iff_forall_ne_some.2 fun n hn => h ⟨n, Text.int64?_eq_some.1 hn⟩
  rw [integer, hnone]

private theorem integers_eq_mapM (tokens : List String) : integers tokens = tokens.mapM integer := by
  induction tokens with
  | nil => rfl
  | cons token tokens ih =>
    rw [integers, List.mapM_cons, ih]

/-- The first token that is no number is reported. -/
private theorem integers_cases (tokens : List String) :
    (∃ before token after, tokens = before ++ token :: after ∧ (∀ t ∈ before, IsInteger t) ∧ ¬ IsInteger token ∧
      integers tokens = .error (.invalidInteger token)) ∨
    ∃ ns, List.Forall₂ (fun token n => Text.Spells token.toList n ∧ Text.IsInt64 n) tokens ns ∧
      integers tokens = .ok ns := by
  classical
  simp only [integers_eq_mapM]
  cases hbad : tokens.find? (decide <| ¬ IsInteger ·) with
  | some token =>
    left
    obtain ⟨htoken, before, after, rfl, hbefore⟩ := List.find?_eq_some_iff_append.1 hbad
    have hbefore' : ∀ t ∈ before, IsInteger t := by simpa using hbefore
    have htoken' : ¬ IsInteger token := by simpa using htoken
    refine ⟨before, token, after, rfl, hbefore', htoken', mapM_of_error (fun t ht => ?_)
      (integer_of_not_isInteger htoken')⟩
    obtain ⟨n, hn⟩ := hbefore' t ht
    exact ⟨n, integer_eq_ok.2 hn⟩
  | none =>
    right
    have hall : ∀ t ∈ tokens, IsInteger t := by simpa using hbad
    choose! value hvalue using hall
    have hforall : List.Forall₂ (fun token n => Text.Spells token.toList n ∧ Text.IsInt64 n) tokens
        (tokens.map value) := by
      rw [List.forall₂_map_right_iff, List.forall₂_same]
      exact hvalue
    exact ⟨_, hforall, mapM_eq_ok.2 (hforall.imp fun _ _ h => integer_eq_ok.2 h)⟩

end NetField

/-! ### Layouts -/

namespace StateLine

/-- What a line says as a list of numbers, in which `mark` stands for a final state and zero for any other.  One number
may stand for two labels that are equal. -/
inductive HasFields (mark : Int) : StateLine → List Int → Prop
  | sentinel : HasFields mark .sentinel [-1, -1, -1, -1, -1]
  | explicit (source upper lower target : Int) (final : Bool) :
      HasFields mark (.explicit source upper lower target final)
        [source, upper, lower, target, if final then mark else 0]
  | explicitLabel (source label target : Int) (final : Bool) :
      HasFields mark (.explicit source label label target final) [source, label, target, if final then mark else 0]
  | implied (upper lower target : Int) : HasFields mark (.implied upper lower target) [upper, lower, target]
  | impliedLabel (label target : Int) : HasFields mark (.implied label label target) [label, target]

variable {mark : Int} {l : StateLine} {fields : List Int} {line : String} {tokens : List String}

private theorem HasFields.length (h : HasFields mark l fields) : 2 ≤ fields.length ∧ fields.length ≤ 5 := by
  cases h <;> simp

private theorem ofFields_explicit {source upper lower target flag : Int}
    (h : [source, upper, lower, target, flag] ≠ [-1, -1, -1, -1, -1]) :
    ofFields [source, upper, lower, target, flag] = .ok (.explicit source upper lower target (flag != 0)) := by
  unfold ofFields
  split
  · rename_i heq
    exact absurd heq h
  · rename_i heq
    cases heq
    rfl
  · rename_i heq
    cases heq
  · rename_i heq
    cases heq
  · rename_i heq
    cases heq
  · rename_i hother _ _ _
    exact absurd rfl (hother source upper lower target flag)

private theorem HasFields.ofFields_eq (h : HasFields 1 l fields) : ofFields fields = .ok l := by
  cases h with
  | sentinel => rfl
  | explicit source upper lower target final =>
    have hmark : [source, upper, lower, target, if final then 1 else 0] ≠ [-1, -1, -1, -1, -1] := by
      cases final <;> simp
    rw [ofFields_explicit hmark]
    cases final <;> rfl
  | explicitLabel source label target final => cases final <;> simp [ofFields]
  | implied upper lower target => simp [ofFields]
  | impliedLabel label target => simp [ofFields]

/-- Zero is the mark of a state that is not final, and any other number can be that of one that is. -/
private theorem exists_mark (flag : Int) : ∃ mark, mark ≠ 0 ∧ (if flag != 0 then mark else 0) = flag := by
  by_cases h : flag = 0
  · exact ⟨1, by decide, by simp [h]⟩
  · exact ⟨flag, h, by simp [h]⟩

/-- Two to five numbers are a layout, whatever marks a final state. -/
private theorem exists_hasFields (hlow : 2 ≤ fields.length) (hhigh : fields.length ≤ 5) :
    ∃ l mark, mark ≠ 0 ∧ HasFields mark l fields ∧ ofFields fields = .ok l := by
  match fields with
  | [label, target] => exact ⟨_, 1, by decide, .impliedLabel label target, by simp [ofFields]⟩
  | [upper, lower, target] => exact ⟨_, 1, by decide, .implied upper lower target, by simp [ofFields]⟩
  | [source, label, target, flag] =>
    obtain ⟨mark, hne, hmark⟩ := exists_mark flag
    have hfields : HasFields mark _ _ := .explicitLabel source label target (flag != 0)
    rw [hmark] at hfields
    exact ⟨_, mark, hne, hfields, by simp [ofFields]⟩
  | [source, upper, lower, target, flag] =>
    by_cases hend : [source, upper, lower, target, flag] = [-1, -1, -1, -1, -1]
    · rw [hend]
      exact ⟨_, 1, by decide, .sentinel, rfl⟩
    · obtain ⟨mark, hne, hmark⟩ := exists_mark flag
      have hfields : HasFields mark _ _ := .explicit source upper lower target (flag != 0)
      rw [hmark] at hfields
      exact ⟨_, mark, hne, hfields, ofFields_explicit hend⟩

/-! ### Lines -/

private theorem ofLine_of_length (h : ¬ (2 ≤ (Text.tokens line).length ∧ (Text.tokens line).length ≤ 5)) :
    ofLine line = .error (.fieldCount (Text.tokens line).length) := by
  rw [ofLine]
  exact if_neg h

private theorem ofLine_eq_bind (h : 2 ≤ (Text.tokens line).length ∧ (Text.tokens line).length ≤ 5) :
    ofLine line = NetField.integers (Text.tokens line) >>= ofFields := by
  rw [ofLine]
  exact if_pos h

private theorem ofLine_of_hasFields (h : HasFields 1 l fields) (hrange : ∀ n ∈ fields, Text.IsInt64 n)
    (htokens : Text.tokens line = fields.map toString) : ofLine line = .ok l := by
  have hread : NetField.integers (Text.tokens line) = .ok fields := by
    rw [NetField.integers_eq_mapM, htokens, mapM_eq_ok, List.forall₂_map_left_iff, List.forall₂_same]
    intro n hn
    exact NetField.integer_eq_ok.2 ⟨Text.spells_toString n, hrange n hn⟩
  have hlength : (Text.tokens line).length = fields.length := by rw [htokens, List.length_map]
  rw [ofLine_eq_bind (hlength ▸ h.length), hread]
  exact h.ofFields_eq

/-- What a line is read as, by its tokens.  The numbers of what it says give it back.  If it has too few tokens or too
many, their number is reported, and else the first of them that is no number.  If there is none, then they are numerals
of what the line is read as, but for the mark of a final state. -/
theorem ofLine_tokens (line : String) :
    (∀ tokens, Text.Spaced line.toList tokens ↔ tokens = Text.tokens line) ∧
    (∀ l fields, HasFields 1 l fields → (∀ n ∈ fields, Text.IsInt64 n) →
      Text.Spaced line.toList (fields.map toString) → ofLine line = .ok l) ∧
    (¬ (2 ≤ (Text.tokens line).length ∧ (Text.tokens line).length ≤ 5) →
      ofLine line = .error (.fieldCount (Text.tokens line).length)) ∧
    (2 ≤ (Text.tokens line).length ∧ (Text.tokens line).length ≤ 5 →
      (∃ before token after, Text.tokens line = before ++ token :: after ∧
        (∀ t ∈ before, NetField.IsInteger t) ∧ ¬ NetField.IsInteger token ∧
        ofLine line = .error (.invalidInteger token)) ∨
      ∃ l mark fields, mark ≠ 0 ∧ HasFields mark l fields ∧
        List.Forall₂ (fun token n => Text.Spells token.toList n ∧ Text.IsInt64 n) (Text.tokens line) fields ∧
        ofLine line = .ok l) := by
  refine ⟨fun tokens => Text.spaced_iff, fun l fields h hrange hline => ?_, ofLine_of_length, fun hlength => ?_⟩
  · exact ofLine_of_hasFields h hrange (Text.spaced_iff.1 hline).symm
  · rw [ofLine_eq_bind hlength]
    rcases NetField.integers_cases (Text.tokens line) with
      ⟨before, token, after, htokens, hbefore, htoken, herror⟩ | ⟨fields, hspells, hok⟩
    · left
      exact ⟨before, token, after, htokens, hbefore, htoken, by rw [herror]; rfl⟩
    · right
      rw [hspells.length_eq] at hlength
      obtain ⟨l, mark, hne, hfields, hread⟩ := exists_hasFields hlength.1 hlength.2
      exact ⟨l, mark, fields, hne, hfields, hspells, by rw [hok]; exact hread⟩

/-- Four numbers, one of them the least that there is, between blanks of several kinds. -/
theorem ofLine_unevenly :
    Text.Spaced "\u30008\t3 \u2003-9223372036854775808\x0c1\r".toList
      ([8, 3, -9223372036854775808, 1].map (toString : Int → String)) ∧
    ofLine "\u30008\t3 \u2003-9223372036854775808\x0c1\r" = .ok (.explicit 8 3 3 (-9223372036854775808) true) := by
  have hspaced := ((ofLine_tokens "\u30008\t3 \u2003-9223372036854775808\x0c1\r").1
    ([8, 3, -9223372036854775808, 1].map (toString : Int → String))).2 (by decide +kernel)
  exact ⟨hspaced, (ofLine_tokens _).2.1 _ _ (.explicitLabel 8 3 (-9223372036854775808) true) (by decide) hspaced⟩

end StateLine

end LexicalTransducer
