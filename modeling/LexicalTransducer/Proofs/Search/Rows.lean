import LexicalTransducer.Search.Workspace

/-!
# The rows of a workspace

The environments of a search lie one behind the other in one flat array.  Going on to a new row copies the current
one and leaves all rows up to it as they were (`row_pushFlags_of_le`, `currentFlags_pushFlags`), and a change of
the current environment is seen in no other row (`row_setFlag_of_lt`).  So a flag on a path changes the new row as
it would change an environment of its own (`currentFlags_applyFlag`).
-/

namespace LexicalTransducer.Workspace

/-- The environment with this index. -/
def row (w : Workspace) (k : Nat) : Array Nat :=
  w.cells.extract (k * w.featureCount) (k * w.featureCount + w.featureCount)

/-- The array is long enough for the current row. -/
def IsAllocated (w : Workspace) : Prop :=
  (w.flagDepth + 1) * w.featureCount ≤ w.cells.size

private theorem getElem?_row (w : Workspace) (k i : Nat) :
    (w.row k)[i]? = if i < w.featureCount then w.cells[k * w.featureCount + i]? else none := by
  unfold row
  rw [Array.getElem?_extract]
  by_cases h : k * w.featureCount + i < w.cells.size
  · simp only [Nat.lt_sub_iff_add_lt]
    split <;> split <;> first | rfl | omega
  · rw [Array.getElem?_eq_none (Nat.le_of_not_lt h), ite_self, ite_self]

private theorem currentFlags_eq_row (w : Workspace) : w.currentFlags = w.row w.flagDepth := rfl

private theorem rowStart_eq (w : Workspace) : w.rowStart = w.flagDepth * w.featureCount := rfl

theorem IsAllocated.rowStart_le {w : Workspace} (h : w.IsAllocated) :
    w.rowStart + w.featureCount ≤ w.cells.size := by
  unfold IsAllocated at h
  rw [Nat.succ_mul] at h
  exact h

theorem row_congr {w w' : Workspace} {k k' : Nat} (hf : w'.featureCount = w.featureCount)
    (h : ∀ i < w.featureCount,
      w'.cells[k' * w.featureCount + i]? = w.cells[k * w.featureCount + i]?) :
    w'.row k' = w.row k := by
  apply Array.ext_getElem?
  intro i
  rw [getElem?_row, getElem?_row, hf]
  split
  · rename_i hi
    exact h i hi
  · rfl

private theorem cell_lt_row {k d width i : Nat} (hk : k < d) (hi : i < width) : k * width + i < d * width := by
  have := Nat.mul_le_mul_right width (Nat.succ_le_of_lt hk)
  rw [Nat.succ_mul] at this
  omega

/-! ### Copying a row forward -/

private theorem getElem?_growTo_of_lt {cells : Array Nat} {n j : Nat} (h : j < cells.size) :
    (growTo cells n)[j]? = cells[j]? := by
  unfold growTo
  rw [Array.getElem?_append_left h]

theorem size_growTo (cells : Array Nat) (n : Nat) : (growTo cells n).size = max cells.size n := by
  unfold growTo
  rw [Array.size_append, Array.size_replicate]
  omega

private theorem size_copyCells (cells : Array Nat) (source target n : Nat) :
    (copyCells cells source target n).size = cells.size := by
  induction n generalizing cells source target with
  | zero => rfl
  | succ n ih => rw [copyCells, ih, Array.size_setIfInBounds]

/-- A copy changes the cells from `target` on and no others. -/
private theorem getElem?_copyCells {cells : Array Nat} {source target n : Nat} (hs : source + n ≤ target)
    (ht : target + n ≤ cells.size) (j : Nat) :
    (copyCells cells source target n)[j]? =
      if target ≤ j ∧ j < target + n then cells[source + (j - target)]? else cells[j]? := by
  induction n generalizing cells source target with
  | zero =>
    rw [if_neg (by omega)]
    rfl
  | succ n ih =>
    rw [copyCells, ih (by omega) (by rw [Array.size_setIfInBounds]; omega)]
    by_cases hj : j = target
    · subst hj
      rw [if_neg (by omega), if_pos (by omega), Array.getElem?_setIfInBounds_self_of_lt (by omega),
        Nat.sub_self, Nat.add_zero, Array.getElem?_eq_getElem (by omega), Array.getD_eq_getD_getElem?,
        Array.getElem?_eq_getElem (by omega), Option.getD_some]
    · by_cases hin : target + 1 ≤ j ∧ j < target + 1 + n
      · rw [if_pos hin, if_pos (by omega), Array.getElem?_setIfInBounds_ne (by omega)]
        congr 1
        omega
      · rw [if_neg hin, if_neg (by omega), Array.getElem?_setIfInBounds_ne (by omega)]

theorem featureCount_pushFlags (w : Workspace) : w.pushFlags.featureCount = w.featureCount := by
  unfold pushFlags
  split <;> rfl

theorem output_pushFlags (w : Workspace) : w.pushFlags.output = w.output := by
  unfold pushFlags
  split <;> rfl

theorem flagDepth_le_pushFlags (w : Workspace) : w.flagDepth ≤ w.pushFlags.flagDepth := by
  unfold pushFlags
  split
  · exact Nat.le_refl _
  · exact Nat.le_succ _

theorem IsAllocated.pushFlags {w : Workspace} (h : w.IsAllocated) : w.pushFlags.IsAllocated := by
  unfold Workspace.pushFlags
  split
  · exact h
  · dsimp only [IsAllocated, rowStart]
    rw [size_copyCells, size_growTo, Nat.succ_mul, Nat.succ_mul]
    omega

/-- The cells of a workspace after a row has been copied forward. -/
private theorem getElem?_cells_pushFlags {w : Workspace} (h : w.IsAllocated) (h0 : w.featureCount ≠ 0) (j : Nat)
    (hj : j < w.rowStart + 2 * w.featureCount) :
    w.pushFlags.cells[j]? =
      if w.rowStart + w.featureCount ≤ j then w.cells[j - w.featureCount]? else w.cells[j]? := by
  have hle := h.rowStart_le
  simp only [pushFlags, h0, ↓reduceIte]
  rw [getElem?_copyCells (Nat.le_refl _) (by rw [size_growTo]; omega)]
  -- the array may have been long enough before, so the new row may cover stale cells
  by_cases hin : w.rowStart + w.featureCount ≤ j
  · rw [if_pos (by omega), if_pos hin, getElem?_growTo_of_lt (by omega)]
    congr 1
    omega
  · rw [if_neg (by omega), if_neg hin, getElem?_growTo_of_lt (by omega)]

/-- Going on to a new row leaves the rows up to the current one as they were. -/
theorem row_pushFlags_of_le {w : Workspace} (h : w.IsAllocated) {k : Nat} (hk : k ≤ w.flagDepth) :
    w.pushFlags.row k = w.row k := by
  by_cases h0 : w.featureCount = 0
  · simp only [pushFlags, h0, ↓reduceIte]
  · apply row_congr (featureCount_pushFlags w)
    intro i hi
    have hlt : k * w.featureCount + i < w.rowStart + w.featureCount := by
      have := cell_lt_row (Nat.lt_succ_of_le hk) hi
      rwa [Nat.succ_mul] at this
    rw [getElem?_cells_pushFlags h h0 _ (by omega), if_neg (by omega)]

/-- The new row is a copy of the old one. -/
theorem currentFlags_pushFlags {w : Workspace} (h : w.IsAllocated) :
    w.pushFlags.currentFlags = w.currentFlags := by
  by_cases h0 : w.featureCount = 0
  · simp only [pushFlags, h0, ↓reduceIte]
  · have hd : w.pushFlags.flagDepth = w.flagDepth + 1 := by simp only [pushFlags, h0, ↓reduceIte]
    rw [currentFlags_eq_row, currentFlags_eq_row, hd]
    apply row_congr (featureCount_pushFlags w)
    intro i hi
    have hr := w.rowStart_eq
    rw [Nat.succ_mul, getElem?_cells_pushFlags h h0 _ (by omega), if_pos (by omega)]
    congr 1
    omega

/-! ### Changing the current row -/

theorem setFlag_eq (w : Workspace) (feature value : Nat) :
    w.setFlag feature value = { w with cells := (w.setFlag feature value).cells } := by
  unfold setFlag
  split <;> rfl

private theorem size_cells_setFlag (w : Workspace) (feature value : Nat) :
    (w.setFlag feature value).cells.size = w.cells.size := by
  unfold setFlag
  split
  · exact Array.size_setIfInBounds
  · rfl

theorem IsAllocated.setFlag {w : Workspace} (h : w.IsAllocated) (feature value : Nat) :
    (w.setFlag feature value).IsAllocated := by
  rw [setFlag_eq]
  unfold IsAllocated
  rw [size_cells_setFlag]
  exact h

/-- The array is never made shorter, so it is long enough for fewer rows as well. -/
theorem IsAllocated.restoreFlags {w : Workspace} (h : w.IsAllocated) {depth : Nat} (hle : depth ≤ w.flagDepth) :
    (w.restoreFlags depth).IsAllocated := by
  have hmul := Nat.mul_le_mul_right w.featureCount (Nat.succ_le_succ hle)
  exact Nat.le_trans hmul h

/-- No row below the current one sees a change. -/
theorem row_setFlag_of_lt (w : Workspace) (feature value : Nat) {k : Nat} (hk : k < w.flagDepth) :
    (w.setFlag feature value).row k = w.row k := by
  unfold setFlag
  split
  · refine row_congr (show _ = w.featureCount from rfl) ?_
    intro i hi
    have hlt : k * w.featureCount + i < w.rowStart := cell_lt_row hk hi
    rw [Array.getElem?_setIfInBounds_ne (by omega)]
  · rfl

/-- The current row sees it as an environment of its own would. -/
theorem currentFlags_setFlag {w : Workspace} (h : w.IsAllocated) (feature value : Nat) :
    (w.setFlag feature value).currentFlags = w.currentFlags.setIfInBounds feature value := by
  have hle := h.rowStart_le
  have hs : w.currentFlags.size = w.featureCount := by
    unfold currentFlags
    rw [Array.size_extract]
    omega
  unfold setFlag
  split
  · rename_i hf
    apply Array.ext_getElem?
    intro i
    rw [Array.getElem?_setIfInBounds, hs, currentFlags_eq_row, currentFlags_eq_row, getElem?_row, getElem?_row]
    simp only [Array.getElem?_setIfInBounds, ← rowStart_eq]
    by_cases hi : feature = i
    · subst hi
      simp only [hf, ↓reduceIte]
      rw [if_pos (by omega)]
    · rw [if_neg hi, if_neg (show ¬ w.rowStart + feature = w.rowStart + i by omega)]
  · rename_i hf
    rw [Array.setIfInBounds_eq_of_size_le (by omega)]

theorem applyFlag_eq (w : Workspace) (f : Flag) : w.applyFlag f = { w with cells := (w.applyFlag f).cells } := by
  unfold applyFlag
  split
  · exact setFlag_eq _ _ _
  · rfl

theorem IsAllocated.applyFlag {w : Workspace} (h : w.IsAllocated) (f : Flag) : (w.applyFlag f).IsAllocated := by
  unfold Workspace.applyFlag
  split
  · exact h.setFlag _ _
  · exact h

theorem row_applyFlag_of_lt (w : Workspace) (f : Flag) {k : Nat} (hk : k < w.flagDepth) :
    (w.applyFlag f).row k = w.row k := by
  unfold applyFlag
  split
  · exact row_setFlag_of_lt w _ _ hk
  · rfl

/-- A flag changes the current row as it changes an environment of its own. -/
theorem currentFlags_applyFlag {w : Workspace} (h : w.IsAllocated) (f : Flag) :
    (w.applyFlag f).currentFlags = f.apply w.currentFlags := by
  cases ha : f.assigned? with
  | none => simp only [applyFlag, Flag.apply, ha]
  | some v =>
    simp only [applyFlag, Flag.apply, ha]
    exact currentFlags_setFlag h _ _

end LexicalTransducer.Workspace
