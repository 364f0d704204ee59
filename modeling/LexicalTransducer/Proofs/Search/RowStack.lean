import LexicalTransducer.Proofs.Search.Rows
import LexicalTransducer.Proofs.Steps
import Mathlib.Logic.Function.Iterate

/-!
# The flat array is a stack of rows

Read up to its current row, the array of a workspace is a stack of environments (`Workspace.rowStack`).  A new row is
a copy of the top, going back drops rows, a write changes the top alone, and a reset leaves one row that sets nothing.
So whatever calls have been made, the rows are those of the stack that has gone through the same calls
(`rowStack_of_calls`): what earlier calls have left in the array behind the current row is never seen.  No call reads
or writes a cell that the array does not have (`Workspace.IsAllocated.inRange`).
-/

namespace LexicalTransducer

/-! ### Stacks of rows -/

/-- A stack of environments: the current one, and those below it, the last one first. -/
structure RowStack where
  top : Array Nat
  below : List (Array Nat)
deriving DecidableEq, Repr

namespace RowStack

/-- One row that sets nothing. -/
def fresh (width : Nat) : RowStack where
  top := Array.replicate width unset
  below := []

def push (s : RowStack) : RowStack :=
  { s with below := s.top :: s.below }

/-- Drop the top.  The last row is never dropped. -/
def pop (s : RowStack) : RowStack :=
  match s.below with
  | [] => s
  | row :: rows => { top := row, below := rows }

/-- Drop rows until there are so many below the top. -/
def dropTo (s : RowStack) (depth : Nat) : RowStack :=
  pop^[s.below.length - depth] s

/-- Change one cell of the top, if it has this cell. -/
def write (s : RowStack) (feature value : Nat) : RowStack :=
  { s with top := s.top.setIfInBounds feature value }

end RowStack

/-- A call that changes the environments of a workspace. -/
inductive RowCall
  | push
  | backtrack (depth : Nat)
  | write (feature value : Nat)
  | reset (initial : Option Nat)
deriving DecidableEq, Repr

namespace Workspace

/-! ### Calls that look before they read or write -/

/-- The next `n` cells from an index on. -/
def readCells? (cells : Array Nat) (start : Nat) : Nat → Option (List Nat)
  | 0 => some []
  | n + 1 => do
    let value ← cells[start]?
    let values ← readCells? cells (start + 1) n
    return value :: values

def currentFlags? (w : Workspace) : Option (List Nat) :=
  readCells? w.cells w.rowStart w.featureCount

def setCell? (cells : Array Nat) (i value : Nat) : Option (Array Nat) :=
  if h : i < cells.size then some (cells.set i value h) else none

def setFlag? (w : Workspace) (feature value : Nat) : Option Workspace :=
  if feature < w.featureCount then
    (setCell? w.cells (w.rowStart + feature) value).map fun cells => { w with cells }
  else some w

def copyCells? (cells : Array Nat) (source target : Nat) : Nat → Option (Array Nat)
  | 0 => some cells
  | n + 1 => do
    let value ← cells[source]?
    let cells ← setCell? cells target value
    copyCells? cells (source + 1) (target + 1) n

def pushFlags? (w : Workspace) : Option Workspace :=
  if w.featureCount = 0 then some w
  else
    let next := w.rowStart + w.featureCount
    (copyCells? (growTo w.cells (next + w.featureCount)) w.rowStart next w.featureCount).map fun cells =>
      { w with cells, flagDepth := w.flagDepth + 1 }

end Workspace

namespace RowCall

def applyTo (w : Workspace) : RowCall → Workspace
  | push => w.pushFlags
  | backtrack depth => w.restoreFlags depth
  | write feature value => w.setFlag feature value
  | reset initial => w.reset initial

/-- The same call, which fails at a cell that the array does not have. -/
def applyTo? (w : Workspace) : RowCall → Option Workspace
  | push => w.pushFlags?
  | backtrack depth => some (w.restoreFlags depth)
  | write feature value => w.setFlag? feature value
  | reset initial => some (w.reset initial)

/-- What the call does to a stack of rows of this width. -/
def onStack (width : Nat) (s : RowStack) : RowCall → RowStack
  | push => s.push
  | backtrack depth => s.dropTo depth
  | write feature value => s.write feature value
  | reset _ => .fresh width

/-- One call after another.  There is no going back to a row that is not there yet. -/
def Leads (w : Workspace) (call : RowCall) (w' : Workspace) : Prop :=
  (∀ depth, call = .backtrack depth → depth ≤ w.flagDepth) ∧ w' = call.applyTo w

end RowCall

namespace Workspace

variable {w w' : Workspace} {cells : Array Nat} {depth value source target n : Nat}

/-! ### No cell is missing -/

/-- Neither reading the current row nor any call uses a cell that the array does not have. -/
structure InRange (w : Workspace) : Prop where
  read : w.currentFlags? = some w.currentFlags.toList
  calls : ∀ call : RowCall, call.applyTo? w = some (call.applyTo w)

private theorem setCell?_of_lt (h : n < cells.size) : setCell? cells n value = some (cells.setIfInBounds n value) := by
  simp only [setCell?, Array.setIfInBounds, h, ↓reduceDIte]

private theorem copyCells?_of_le (hs : source + n ≤ cells.size) (ht : target + n ≤ cells.size) :
    copyCells? cells source target n = some (copyCells cells source target n) := by
  induction n generalizing cells source target with
  | zero => rfl
  | succ n ih =>
    have hread : cells[source]? = some (cells.getD source unset) := by
      rw [Array.getD_eq_getD_getElem?, Array.getElem?_eq_getElem (by omega), Option.getD_some]
    have hwrite : setCell? cells target (cells.getD source unset) =
        some (cells.setIfInBounds target (cells.getD source unset)) := setCell?_of_lt (by omega)
    rw [copyCells?, copyCells, hread, Option.bind_eq_bind, Option.bind_some, hwrite, Option.bind_eq_bind,
      Option.bind_some]
    exact ih (by rw [Array.size_setIfInBounds]; omega) (by rw [Array.size_setIfInBounds]; omega)

private theorem readCells?_of_le (h : source + n ≤ cells.size) :
    readCells? cells source n = some ((cells.toList.drop source).take n) := by
  induction n generalizing source with
  | zero => rfl
  | succ n ih =>
    have hlt : source < cells.toList.length := by
      rw [Array.length_toList]
      omega
    rw [readCells?, ih (by omega), Array.getElem?_eq_getElem (by omega), List.drop_eq_getElem_cons hlt,
      List.take_succ_cons, Array.getElem_toList]
    rfl

private theorem IsAllocated.currentFlags?_eq (h : w.IsAllocated) : w.currentFlags? = some w.currentFlags.toList := by
  rw [currentFlags?, readCells?_of_le h.rowStart_le, currentFlags, Array.toList_extract, List.extract_eq_take_drop,
    Nat.add_sub_cancel_left]

private theorem IsAllocated.setFlag?_eq (h : w.IsAllocated) (feature value : Nat) :
    w.setFlag? feature value = some (w.setFlag feature value) := by
  have hle := h.rowStart_le
  unfold setFlag? Workspace.setFlag
  split
  · rw [setCell?_of_lt (by omega), Option.map_some]
  · rfl

private theorem IsAllocated.pushFlags?_eq (h : w.IsAllocated) : w.pushFlags? = some w.pushFlags := by
  have hle := h.rowStart_le
  unfold pushFlags? Workspace.pushFlags
  split
  · rfl
  · -- the array is made long enough for the new row before anything is copied
    have hsize := size_growTo w.cells (w.rowStart + w.featureCount + w.featureCount)
    simp only []
    rw [copyCells?_of_le (by omega) (by omega), Option.map_some]

theorem IsAllocated.inRange (h : w.IsAllocated) : w.InRange where
  read := h.currentFlags?_eq
  calls call := by
    cases call with
    | push => exact h.pushFlags?_eq
    | write feature value => exact h.setFlag?_eq feature value
    | backtrack | reset => rfl

/-! ### The rows of a workspace as a stack -/

/-- The rows below the one with this index, the last one first. -/
def rowsBelow (w : Workspace) (depth : Nat) : List (Array Nat) :=
  (List.range depth).reverse.map w.row

/-- The rows up to the current one. -/
def rowStack (w : Workspace) : RowStack where
  top := w.row w.flagDepth
  below := w.rowsBelow w.flagDepth

private theorem rowsBelow_succ (w : Workspace) (depth : Nat) :
    w.rowsBelow (depth + 1) = w.row depth :: w.rowsBelow depth := by
  rw [rowsBelow, List.range_succ, List.reverse_append, List.map_append]
  rfl

private theorem rowsBelow_congr (h : ∀ k < depth, w'.row k = w.row k) : w'.rowsBelow depth = w.rowsBelow depth := by
  apply List.map_congr_left
  intro k hk
  exact h k (List.mem_range.1 (List.mem_reverse.1 hk))

private theorem length_rowsBelow (w : Workspace) (depth : Nat) : (w.rowsBelow depth).length = depth := by
  rw [rowsBelow, List.length_map, List.length_reverse, List.length_range]

private theorem rowStack_pushFlags (h : w.IsAllocated) (h0 : 0 < w.featureCount) :
    w.pushFlags.rowStack = w.rowStack.push := by
  have hd : w.pushFlags.flagDepth = w.flagDepth + 1 := by
    simp only [pushFlags, Nat.ne_of_gt h0, ↓reduceIte]
  have htop : w.pushFlags.row w.pushFlags.flagDepth = w.row w.flagDepth := currentFlags_pushFlags h
  rw [rowStack, htop, hd, rowsBelow_succ, row_pushFlags_of_le h (Nat.le_refl _),
    rowsBelow_congr fun k hk => row_pushFlags_of_le h (Nat.le_of_lt hk)]
  rfl

private theorem rowStack_setFlag (h : w.IsAllocated) (feature value : Nat) :
    (w.setFlag feature value).rowStack = w.rowStack.write feature value := by
  have hd : (w.setFlag feature value).flagDepth = w.flagDepth := by rw [setFlag_eq]
  have htop : (w.setFlag feature value).row (w.setFlag feature value).flagDepth =
      (w.row w.flagDepth).setIfInBounds feature value := currentFlags_setFlag h feature value
  rw [rowStack, htop, hd, rowsBelow_congr fun k hk => row_setFlag_of_lt w feature value hk]
  rfl

/-- Going back by one row drops the top. -/
private theorem rowStack_restoreFlags_succ (w : Workspace) (depth : Nat) :
    (w.restoreFlags (depth + 1)).rowStack.pop = (w.restoreFlags depth).rowStack := by
  have hrows : (w.restoreFlags (depth + 1)).rowStack = ⟨w.row (depth + 1), w.row depth :: w.rowsBelow depth⟩ :=
    congrArg (RowStack.mk _) (w.rowsBelow_succ depth)
  rw [hrows]
  rfl

private theorem iterate_pop_rowStack (h : w.flagDepth = depth + n) :
    RowStack.pop^[n] w.rowStack = (w.restoreFlags depth).rowStack := by
  induction n generalizing depth with
  | zero =>
    rw [Function.iterate_zero, id, ← Nat.add_zero depth, ← h]
    rfl
  | succ n ih =>
    have hn : w.flagDepth = depth + 1 + n := by omega
    rw [Function.iterate_succ_apply', ih hn, rowStack_restoreFlags_succ]

private theorem rowStack_restoreFlags (h : depth ≤ w.flagDepth) :
    (w.restoreFlags depth).rowStack = w.rowStack.dropTo depth := by
  rw [RowStack.dropTo, show w.rowStack.below.length = w.flagDepth from w.length_rowsBelow _,
    iterate_pop_rowStack (Nat.add_sub_of_le h).symm]

private theorem rowStack_of_zero (h : w.flagDepth = 0) (hc : w.cells = Array.replicate w.featureCount unset) :
    w.rowStack = .fresh w.featureCount := by
  rw [rowStack, h, row, hc]
  simp [rowsBelow, RowStack.fresh]

/-! ### Rows of calls -/

/-- The rows are those of a stack of rows of this width, and the array is long enough for them. -/
structure Stacks (width : Nat) (w : Workspace) (s : RowStack) : Prop where
  width_eq : w.featureCount = width
  rows : w.rowStack = s
  allocated : w.IsAllocated

private theorem stacks_reset (w : Workspace) (initial : Option Nat) :
    Stacks w.featureCount (w.reset initial) (.fresh w.featureCount) where
  width_eq := rfl
  rows := rowStack_of_zero rfl rfl
  allocated := by simp [IsAllocated, reset]

private theorem stacks_empty (width : Nat) : Stacks width (.empty width) (.fresh width) where
  width_eq := rfl
  rows := rowStack_of_zero rfl rfl
  allocated := by simp [IsAllocated, empty]

/-- A call does to the rows what it does to the stack. -/
private theorem Stacks.leads {width : Nat} {s : RowStack} {call : RowCall} (h : Stacks width w s) (h0 : 0 < width)
    (hc : RowCall.Leads w call w') : Stacks width w' (call.onStack width s) := by
  obtain ⟨rfl, rfl, hal⟩ := h
  obtain ⟨hdepth, rfl⟩ := hc
  cases call with
  | push => exact ⟨featureCount_pushFlags w, rowStack_pushFlags hal h0, hal.pushFlags⟩
  | backtrack depth =>
    have hle := hdepth depth rfl
    exact ⟨rfl, rowStack_restoreFlags hle, hal.restoreFlags hle⟩
  | write feature value =>
    refine ⟨?_, rowStack_setFlag hal feature value, hal.setFlag feature value⟩
    show (w.setFlag feature value).featureCount = _
    rw [setFlag_eq]
  | reset initial => exact w.stacks_reset initial

private theorem Stacks.steps {width : Nat} {s : RowStack} {calls : List RowCall} (h0 : 0 < width)
    (hs : Steps RowCall.Leads w calls w') (h : Stacks width w s) :
    Stacks width w' (calls.foldl (RowCall.onStack width) s) := by
  induction hs generalizing s with
  | nil => exact h
  | cons hc _ ih => exact ih (h.leads h0 hc)

/-- Whatever calls are made, the rows up to the current one are those of a stack that has gone through the same calls,
and neither reading the current row nor a further call misses a cell of the array. -/
theorem rowStack_of_calls {width : Nat} (h0 : 0 < width) {calls : List RowCall}
    (hs : Steps RowCall.Leads (.empty width) calls w) :
    w.rowStack = calls.foldl (RowCall.onStack width) (.fresh width) ∧ w.InRange := by
  have h := (stacks_empty width).steps h0 hs
  exact ⟨h.rows, h.allocated.inRange⟩

/-- Two rows are left, and one of them is gone on to again. -/
def returningCalls : List RowCall :=
  [.write 0 5, .push, .write 1 7, .push, .write 0 8, .backtrack 0, .push]

/-- The new row is a copy of the one below it, not what had been left in its place, and behind it the array still has
the other row that has been left. -/
theorem rowStack_of_returningCalls : 0 < 2 ∧ ∃ w, Steps RowCall.Leads (.empty 2) returningCalls w ∧
    w.cells = #[5, 0, 5, 0, 8, 7] ∧ w.rowStack = ⟨#[5, 0], [#[5, 0]]⟩ ∧ w.InRange := by
  obtain ⟨w, hw⟩ : ∃ w, w = returningCalls.foldl RowCall.applyTo (.empty 2) := ⟨_, rfl⟩
  have hs : Steps RowCall.Leads (.empty 2) returningCalls w := by
    rw [hw]
    refine .cons ⟨nofun, rfl⟩ (.cons ⟨nofun, rfl⟩ (.cons ⟨nofun, rfl⟩ (.cons ⟨nofun, rfl⟩ (.cons ⟨nofun, rfl⟩
      (.cons ⟨?_, rfl⟩ (.cons ⟨nofun, rfl⟩ (.nil _)))))))
    rintro depth ⟨⟩
    exact Nat.zero_le _
  obtain ⟨hrows, hrange⟩ := rowStack_of_calls (by decide) hs
  refine ⟨by decide, w, hs, ?_, ?_, hrange⟩
  · rw [hw]
    decide +kernel
  · rw [hrows]
    decide +kernel

end Workspace

end LexicalTransducer
