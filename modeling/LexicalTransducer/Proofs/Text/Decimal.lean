import LexicalTransducer.Text.Lines
import LexicalTransducer.Text.Decimal
import Mathlib.Data.List.Induction

/-!
# Numerals

A numeral of a number is made of its decimal digits, any number of zeros in front of them, and at most one sign in
front of these (`Spells`).  A text is read as a number exactly if it is a numeral of it and the number is in range
(`int64?_eq_some`, `nat64?_eq_some`).
-/

namespace LexicalTransducer.Text

/-- The decimal digits of a number, with any number of zeros in front of them. -/
def IsDecimal (cs : List Char) (n : Nat) : Prop :=
  ∃ zeros, cs = List.replicate zeros '0' ++ Nat.toDigits 10 n

/-- The numerals of a number. -/
inductive Spells : List Char → Int → Prop
  | bare {cs : List Char} {n : Nat} (h : IsDecimal cs n) : Spells cs n
  | plus {cs : List Char} {n : Nat} (h : IsDecimal cs n) : Spells ('+' :: cs) n
  | minus {cs : List Char} {n : Nat} (h : IsDecimal cs n) : Spells ('-' :: cs) (-n)

/-- A number is a signed word of 64 bits. -/
def IsInt64 (n : Int) : Prop :=
  -signedLimit64 ≤ n ∧ n < signedLimit64

instance : DecidablePred IsInt64 := fun _ => inferInstanceAs (Decidable (_ ∧ _))

variable {c : Char} {cs : List Char} {n : Nat} {i : Int} {token : String}

/-! ### Digits -/

theorem isBlank_of_isDigit (h : c.isDigit = true) : isBlank c = false := by
  simp only [Char.isDigit, Bool.and_eq_true, decide_eq_true_eq, UInt32.le_iff_toNat_le] at h
  have hlow : 48 ≤ c.toNat := h.1
  have hhigh : c.toNat ≤ 57 := h.2
  simp only [isBlank, Bool.or_eq_false_iff, Bool.and_eq_false_iff, decide_eq_false_iff_not, beq_eq_false_iff_ne]
  omega

/-- A digit is the digit of its value. -/
private theorem exists_digitChar_of_isDigit (h : c.isDigit = true) :
    ∃ d < 10, c.toNat - '0'.toNat = d ∧ d.digitChar = c := by
  simp only [Char.isDigit, Bool.and_eq_true, decide_eq_true_eq, UInt32.le_iff_toNat_le] at h
  have hlow : 48 ≤ c.toNat := h.1
  have hhigh : c.toNat ≤ 57 := h.2
  have hlt : c.toNat - 48 < 10 := by omega
  refine ⟨c.toNat - 48, hlt, rfl, Char.toNat_inj.1 ?_⟩
  rw [Nat.toNat_digitChar_of_lt_ten hlt]
  omega

theorem IsDecimal.isDigit (h : IsDecimal cs n) (hc : c ∈ cs) : c.isDigit = true := by
  obtain ⟨zeros, rfl⟩ := h
  rcases List.mem_append.1 hc with hc | hc
  · rw [List.eq_of_mem_replicate hc]
    rfl
  · exact Nat.isDigit_of_mem_toDigits (by omega) (by omega) hc

private theorem IsDecimal.ne_nil (h : IsDecimal cs n) : cs ≠ [] := by
  obtain ⟨zeros, rfl⟩ := h
  exact List.append_ne_nil_of_right_ne_nil _ Nat.toDigits_ne_nil

theorem isDecimal_toString (n : Nat) : IsDecimal (toString n).toList n :=
  ⟨0, by rw [Nat.toString_eq_ofList_toDigits, String.toList_ofList, List.replicate_zero, List.nil_append]⟩

/-- One more digit behind the digits of a number. -/
private theorem IsDecimal.append_digit {d : Nat} (h : IsDecimal cs n) (hd : d < 10) :
    IsDecimal (cs ++ [d.digitChar]) (10 * n + d) := by
  obtain ⟨zeros, rfl⟩ := h
  have hone : [d.digitChar] = Nat.toDigits 10 d := (Nat.toDigits_of_lt_base hd).symm
  rcases Nat.eq_zero_or_pos n with rfl | hn
  · -- the digit of zero is one more zero in front
    refine ⟨zeros + 1, ?_⟩
    rw [Nat.toDigits_zero, hone, Nat.mul_zero, Nat.zero_add, List.replicate_succ']
  · refine ⟨zeros, ?_⟩
    rw [List.append_assoc, hone, Nat.toDigits_append_toDigits (by omega) hn hd]

private theorem isDecimal_foldl (hne : cs ≠ []) (hdigits : ∀ c ∈ cs, c.isDigit = true) :
    IsDecimal cs (cs.foldl (fun n c => 10 * n + (c.toNat - '0'.toNat)) 0) := by
  induction cs using List.reverseRecOn with
  | nil => exact absurd rfl hne
  | append_singleton cs c ih =>
    obtain ⟨d, hd, hvalue, rfl⟩ := exists_digitChar_of_isDigit (hdigits c (by simp))
    rw [List.foldl_append, List.foldl_cons, List.foldl_nil, hvalue]
    cases cs with
    | nil => exact ⟨0, by simp [Nat.toDigits_of_lt_base hd]⟩
    | cons c' cs => exact (ih (List.cons_ne_nil _ _) fun c hc => hdigits c (List.mem_append_left _ hc)).append_digit hd

private theorem IsDecimal.foldl_eq (h : IsDecimal cs n) :
    cs.foldl (fun n c => 10 * n + (c.toNat - '0'.toNat)) 0 = n := by
  obtain ⟨zeros, rfl⟩ := h
  rw [← Nat.ofDigitChars_eq_foldl, Nat.ofDigitChars_append, Nat.ofDigitChars_replicate_zero, Nat.mul_zero,
    Nat.ofDigitChars_ten_toDigits]

private theorem digits?_eq_some : digits? cs = some n ↔ IsDecimal cs n := by
  rw [digits?]
  split
  · rename_i hno
    constructor
    · intro h
      cases h
    · intro h
      have hall : cs.all Char.isDigit = true := List.all_eq_true.2 fun c hc => h.isDigit hc
      simp [h.ne_nil, hall] at hno
  · rename_i hyes
    simp only [Bool.or_eq_true, List.isEmpty_iff, Bool.not_eq_true', Bool.not_eq_false, not_or, List.all_eq_true]
      at hyes
    rw [Option.some.injEq]
    constructor
    · rintro rfl
      exact isDecimal_foldl hyes.1 hyes.2
    · exact IsDecimal.foldl_eq

/-! ### Signs -/

theorem spells_toString (i : Int) : Spells (toString i).toList i := by
  cases i with
  | ofNat n => exact .bare (isDecimal_toString n)
  | negSucc n =>
    have hminus : (toString (Int.negSucc n)).toList = '-' :: (toString (n + 1)).toList := by
      rw [Int.toString_eq_repr, Int.repr_eq_if, if_neg (by omega), String.toList_append, Nat.toString_eq_repr]
      rfl
    rw [hminus]
    exact .minus (isDecimal_toString (n + 1))

private theorem signed?_minus (cs : List Char) : signed? ('-' :: cs) = (digits? cs).map fun n : Nat => -(n : Int) := by
  rw [signed?]
  cases digits? cs <;> rfl

private theorem signed?_plus (cs : List Char) : signed? ('+' :: cs) = (digits? cs).map fun n : Nat => (n : Int) := by
  rw [signed?]
  cases digits? cs <;> rfl

private theorem signed?_bare (hminus : cs.head? ≠ some '-') (hplus : cs.head? ≠ some '+') :
    signed? cs = (digits? cs).map fun n : Nat => (n : Int) := by
  unfold signed?
  split
  · exact absurd rfl hminus
  · exact absurd rfl hplus
  · cases digits? cs <;> rfl

/-- Digits have no sign in front of them. -/
private theorem IsDecimal.head?_ne (h : IsDecimal cs n) (hc : c.isDigit = false) : cs.head? ≠ some c := by
  intro hhead
  rw [h.isDigit (List.mem_of_mem_head? hhead)] at hc
  cases hc

theorem signed?_eq_some : signed? cs = some i ↔ Spells cs i := by
  constructor
  · intro h
    by_cases hminus : cs.head? = some '-'
    · obtain ⟨cs, rfl⟩ := List.head?_eq_some_iff.1 hminus
      obtain ⟨n, hn, rfl⟩ := Option.map_eq_some_iff.1 ((signed?_minus cs).symm.trans h)
      exact .minus (digits?_eq_some.1 hn)
    by_cases hplus : cs.head? = some '+'
    · obtain ⟨cs, rfl⟩ := List.head?_eq_some_iff.1 hplus
      obtain ⟨n, hn, rfl⟩ := Option.map_eq_some_iff.1 ((signed?_plus cs).symm.trans h)
      exact .plus (digits?_eq_some.1 hn)
    obtain ⟨n, hn, rfl⟩ := Option.map_eq_some_iff.1 ((signed?_bare hminus hplus).symm.trans h)
    exact .bare (digits?_eq_some.1 hn)
  · intro h
    cases h with
    | bare h =>
      rw [signed?_bare (h.head?_ne (by decide)) (h.head?_ne (by decide)), digits?_eq_some.2 h, Option.map_some]
    | plus h => rw [signed?_plus, digits?_eq_some.2 h, Option.map_some]
    | minus h => rw [signed?_minus, digits?_eq_some.2 h, Option.map_some]

/-! ### Ranges -/

theorem int64?_eq_some : int64? token = some i ↔ Spells token.toList i ∧ IsInt64 i := by
  rw [int64?, Option.filter_eq_some_iff, decide_eq_true_eq, signed?_eq_some]
  rfl

/-- The digits of a number are read as the number. -/
theorem int64?_toString (h : (n : Int) < signedLimit64) : int64? (toString n) = some (n : Int) := by
  refine int64?_eq_some.2 ⟨.bare (isDecimal_toString n), ?_, h⟩
  rw [signedLimit64]
  omega

/-- Unsigned numbers have no minus sign, so that only a numeral of zero can fail to be read as one. -/
theorem nat64?_eq_some (hn : 0 < n) : nat64? token = some n ↔ Spells token.toList n ∧ n < wordCount64 := by
  rw [nat64?, Option.filter_eq_some_iff, decide_eq_true_eq]
  refine and_congr_left fun _ => ?_
  rw [digits?_eq_some]
  constructor
  · intro h
    split at h
    · rename_i cs hcs
      exact hcs ▸ .plus h
    · exact .bare h
  · generalize hi : (n : Int) = i
    intro h
    split
    · rename_i cs hcs
      rw [hcs] at h
      cases h with
      | bare h => exact absurd (h.isDigit (List.mem_cons_self ..)) (by decide)
      | plus h => exact Int.ofNat.inj hi ▸ h
    · rename_i hplus
      generalize token.toList = cs at h hplus
      cases h with
      | bare h => exact Int.ofNat.inj hi ▸ h
      | plus h => exact absurd rfl (hplus _)
      | minus h => omega

end LexicalTransducer.Text
