import LexicalTransducer.Search.Items

/-!
# The recursive search

The same search as a plain recursion.  Each path carries its own copy of the output and of the environment
(`Branch`), so that nothing has to be undone.  `explore` takes a path as far as it goes: first the output of the
path itself, if it may end here, then what its arcs lead to, one after the other, up to the first error.
-/

namespace LexicalTransducer

/-- What a path carries along. -/
structure Branch where
  state : Nat
  /-- How many input symbols it has consumed. -/
  consumed : Nat
  env : Array Nat
  output : List Nat
  /-- How many of its arcs have consumed nothing. -/
  idle : Nat
deriving DecidableEq, Repr

/-- What a search has found: outputs, and the error that has stopped it, if any. -/
structure Findings where
  outputs : List (List Nat) := []
  error? : Option LookupError := none
deriving DecidableEq, Repr

namespace Findings

/-- Search on where the first search has ended, unless an error has stopped it. -/
def andThen (a b : Findings) : Findings :=
  match a.error? with
  | some _ => a
  | none => { b with outputs := a.outputs ++ b.outputs }

def all (findings : List Findings) : Findings :=
  findings.foldr andThen {}

def items (a : Findings) : List Item :=
  a.outputs.map .ok ++ a.error?.toList.map .error

@[simp] theorem nothing_andThen (a : Findings) : andThen {} a = a := rfl

@[simp] theorem andThen_nothing (a : Findings) : a.andThen {} = a := by
  unfold andThen
  split
  · rfl
  · rename_i h
    rw [List.append_nil, ← h]

theorem andThen_of_error (e : LookupError) (a b : Findings) (h : a.error? = some e) : a.andThen b = a := by
  unfold andThen
  rw [h]

theorem andThen_assoc (a b c : Findings) : (a.andThen b).andThen c = a.andThen (b.andThen c) := by
  cases ha : a.error? with
  | some e => rw [andThen_of_error e a b ha, andThen_of_error e a c ha, andThen_of_error e a _ ha]
  | none =>
    cases hb : b.error? with
    | some e => simp only [andThen, ha, hb]
    | none => simp only [andThen, ha, hb, List.append_assoc]

@[simp] theorem all_nil : all [] = {} := rfl

@[simp] theorem all_cons (a : Findings) (as : List Findings) : all (a :: as) = a.andThen (all as) := rfl

end Findings

namespace Query

variable (q : Query)

/-- The label of an arc on the tape that consumes the input. -/
def read (a : Arc) : Nat :=
  (q.tape.labels a).1

def write (a : Arc) : Nat :=
  (q.tape.labels a).2

theorem follow_eq (w : Workspace) (f : Frame) (a : Arc) : q.follow w f a =
    if q.read a = Symbol.epsilonId then q.enter w a.target (q.write a) f.consumed
    else if q.input[f.consumed]? = some (q.read a) then q.enter w a.target (q.write a) (f.consumed + 1)
    else match q.symbols.flag? (q.read a) with
      | none => .moved w
      | some flag =>
        if q.write a ≠ q.read a then .failed (.mismatchedFlag f.state flag.text)
        else if flag.test w.currentFlags then
          q.enter (w.pushFlags.applyFlag flag) a.target (q.write a) f.consumed
        else .moved w := rfl

def root (initial : Nat) : Branch where
  state := initial
  consumed := 0
  env := Array.replicate q.symbols.featureCount unset
  output := []
  idle := 0

/-- The path that goes on along an arc. -/
def goOn (b : Branch) (a : Arc) (consumed : Nat) (env : Array Nat) (idle : Nat) : Branch where
  state := a.target
  consumed
  env
  output := if q.isVisible (q.write a) then b.output ++ [q.write a] else b.output
  idle

/-- A path may not have more idle arcs than the limit. -/
def limited (b : Branch) : Except LookupError Branch :=
  if q.limits.maxDepth < b.idle then .error (.depthLimit q.limits.maxDepth) else .ok b

/-- Where an arc leads a path, if it applies. -/
def tryArc (b : Branch) (a : Arc) : Option (Except LookupError Branch) :=
  if q.read a = Symbol.epsilonId then
    some (q.limited (q.goOn b a b.consumed b.env (b.idle + 1)))
  else if q.input[b.consumed]? = some (q.read a) then
    some (q.limited (q.goOn b a (b.consumed + 1) b.env b.idle))
  else match q.symbols.flag? (q.read a) with
    | none => none
    | some flag =>
      if q.write a ≠ q.read a then some (.error (.mismatchedFlag b.state flag.text))
      else if flag.test b.env then
        some (q.limited (q.goOn b a b.consumed (flag.apply b.env) (b.idle + 1)))
      else none

/-- How many arcs a path may still take. -/
def room (b : Branch) : Nat :=
  (q.limits.maxDepth - b.idle) + (q.input.size - b.consumed)

theorem limited_eq_ok {b b' : Branch} : q.limited b = .ok b' ↔ b = b' ∧ b.idle ≤ q.limits.maxDepth := by
  unfold limited
  split
  · rename_i h
    simp only [reduceCtorEq, false_iff, not_and]
    omega
  · rename_i h
    rw [Except.ok.injEq]
    exact (and_iff_left (Nat.le_of_not_lt h)).symm

theorem limited_eq_error {b : Branch} {e : LookupError} :
    q.limited b = .error e ↔ e = .depthLimit q.limits.maxDepth ∧ q.limits.maxDepth < b.idle := by
  unfold limited
  split
  · rename_i h
    rw [Except.error.injEq]
    exact ⟨fun he => ⟨he.symm, h⟩, fun he => he.1.symm⟩
  · rename_i h
    simp only [reduceCtorEq, false_iff, not_and]
    exact fun _ => h

theorem room_lt_of_tryArc {b b' : Branch} {a : Arc} (h : q.tryArc b a = some (.ok b')) :
    q.room b' < q.room b := by
  unfold tryArc at h
  split at h
  · rw [Option.some.injEq, limited_eq_ok] at h
    obtain ⟨rfl, hi⟩ := h
    simp only [room, goOn] at hi ⊢
    omega
  · split at h
    · rename_i hc
      obtain ⟨hlt, -⟩ := Array.getElem?_eq_some_iff.1 hc
      rw [Option.some.injEq, limited_eq_ok] at h
      obtain ⟨rfl, -⟩ := h
      simp only [room, goOn]
      omega
    · split at h
      · cases h
      · split at h
        · cases h
        · split at h
          · rw [Option.some.injEq, limited_eq_ok] at h
            obtain ⟨rfl, hi⟩ := h
            simp only [room, goOn] at hi ⊢
            omega
          · cases h

/-- The output of a path that may end where it has come to. -/
def arrive (b : Branch) : Findings :=
  if b.consumed = q.input.size ∧ q.graph.accepts b.state then { outputs := [b.output] } else {}

/-- Search on from the end of a path, through a graph in which the states have these arcs. -/
def explore (arcs : Nat → List Arc) (b : Branch) : Findings :=
  (q.arrive b).andThen (.all ((arcs b.state).map fun a =>
    match _h : q.tryArc b a with
    | none => {}
    | some (.error e) => { error? := some e }
    | some (.ok b) => explore arcs b))
termination_by q.room b
decreasing_by exact q.room_lt_of_tryArc _h

def exploreArc (arcs : Nat → List Arc) (b : Branch) (a : Arc) : Findings :=
  match q.tryArc b a with
  | none => {}
  | some (.error e) => { error? := some e }
  | some (.ok b) => q.explore arcs b

theorem explore_eq (arcs : Nat → List Arc) (b : Branch) :
    q.explore arcs b = (q.arrive b).andThen (.all ((arcs b.state).map (q.exploreArc arcs b))) := by
  rw [explore]
  congr 2
  apply List.map_congr_left
  intro a _
  unfold exploreArc
  split <;> rename_i h <;> rw [h]

/-- The whole search, through the row of arcs of the graph. -/
def search (initial : Option Nat) : Findings :=
  match initial with
  | none => {}
  | some state => q.explore (fun s => q.graph.arcs.toList.filter fun a => a.source = s) (q.root state)

end Query

end LexicalTransducer
