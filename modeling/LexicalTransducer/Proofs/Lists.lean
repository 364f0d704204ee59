import Mathlib.Data.List.Basic
import Mathlib.Data.List.Nodup
import Mathlib.Data.List.TakeWhile

/-!
# Lists

Facts about lists that the library does not have: how a list is cut at a separator, where an element of a longer list
stands, and what decides a fold in which the last write or the largest number counts.
-/

namespace LexicalTransducer

variable {α β ι σ : Type}

/-! ### Separators -/

/-- The first piece is what stands in front of the first separator, and the others are those of what stands behind
it. -/
theorem splitOn_of_mem [BEq α] [LawfulBEq α] {sep : α} {xs : List α} (h : sep ∈ xs) :
    xs.splitOn sep = xs.takeWhile (· != sep) :: (xs.dropWhile (· != sep)).tail.splitOn sep := by
  induction xs with
  | nil => cases h
  | cons x xs ih =>
    rw [List.splitOn_cons_eq_if_modifyHead]
    by_cases hx : x = sep
    · simp [hx]
    · have hmem : sep ∈ xs := (List.mem_cons.1 h).resolve_left (Ne.symm hx)
      simp [hx, ih hmem]

theorem exists_splitOn_eq_cons [BEq α] [LawfulBEq α] (sep : α) (xs : List α) :
    ∃ pieces, xs.splitOn sep = xs.takeWhile (· != sep) :: pieces := by
  by_cases h : sep ∈ xs
  · exact ⟨_, splitOn_of_mem h⟩
  · have hne : ∀ x ∈ xs, (x != sep) = true := fun x hx => bne_iff_ne.2 fun heq => h (heq ▸ hx)
    exact ⟨[], by rw [List.splitOn_eq_singleton h, List.takeWhile_eq_self_iff.2 hne]⟩

/-- Pieces with a separator behind each are cut into the pieces again, and nothing is left behind the last one. -/
theorem splitOnP_flatMap {p : α → Bool} {sep : α} (hsep : p sep = true) {pieces : List (List α)}
    (h : ∀ piece ∈ pieces, ∀ x ∈ piece, p x = false) :
    (pieces.flatMap (· ++ [sep])).splitOnP p = pieces ++ [[]] := by
  induction pieces with
  | nil => exact List.splitOnP_nil
  | cons piece pieces ih =>
    rw [List.flatMap_cons, List.append_assoc, List.singleton_append,
      List.splitOnP_append_cons_of_forall_mem (h piece (List.mem_cons_self ..)) sep hsep,
      ih fun piece' hp => h piece' (List.mem_cons_of_mem _ hp), List.cons_append]

/-! ### Places -/

/-- A place in a longer list is its end or a place in the list without its last element. -/
theorem append_singleton_eq_iff {xs earlier later : List α} {x y : α} :
    xs ++ [x] = earlier ++ y :: later ↔
      (xs = earlier ∧ x = y ∧ later = []) ∨ ∃ rest, xs = earlier ++ y :: rest ∧ later = rest ++ [x] := by
  constructor
  · intro h
    rcases List.eq_nil_or_concat' later with rfl | ⟨rest, z, rfl⟩
    · obtain ⟨hxs, hx⟩ := List.append_inj' h rfl
      exact .inl ⟨hxs, List.singleton_inj.1 hx, rfl⟩
    · have h' : xs ++ [x] = (earlier ++ y :: rest) ++ [z] := by
        rw [h]
        simp
      obtain ⟨hxs, hx⟩ := List.append_inj' h' rfl
      exact .inr ⟨rest, hxs, by rw [List.singleton_inj.1 hx]⟩
  · rintro (⟨rfl, rfl, rfl⟩ | ⟨rest, rfl, rfl⟩)
    · rfl
    · simp

/-- Where no key stands twice, a key has one value. -/
theorem eq_of_mem_of_nodup {entries : List (α × β)} (h : (entries.map Prod.fst).Nodup) {a : α} {b b' : β}
    (hin : (a, b) ∈ entries) (hin' : (a, b') ∈ entries) : b = b' :=
  congrArg Prod.snd (List.inj_on_of_nodup_map h hin hin' rfl)

/-! ### Folds -/

/-- Where each element of a row may write a field, the last one that does counts. -/
theorem foldl_eq_getLast? {apply : σ → ι → σ} {field : σ → β} {write : ι → Option β}
    (happly : ∀ s i, field (apply s i) = (write i).getD (field s)) (is : List ι) (s : σ) :
    field (is.foldl apply s) = (is.filterMap write).getLast?.getD (field s) := by
  induction is generalizing s with
  | nil => rfl
  | cons i is ih =>
    rw [List.foldl_cons, ih, happly, List.filterMap_cons]
    cases write i with
    | none => rfl
    | some b => rw [List.getLast?_cons, Option.getD_some, Option.getD_some]

theorem foldr_max_mem (ns : List Nat) : ns.foldr max 0 = 0 ∨ ns.foldr max 0 ∈ ns := by
  induction ns with
  | nil => exact .inl rfl
  | cons n ns ih =>
    rw [List.foldr_cons]
    rcases Nat.le_total n (ns.foldr max 0) with h | h
    · rw [Nat.max_eq_right h]
      exact ih.imp_right (List.mem_cons_of_mem n)
    · rw [Nat.max_eq_left h]
      exact .inr (List.mem_cons_self ..)

end LexicalTransducer
