import LexicalTransducer.Symbol.Table

/-!
# Arcs

An arc leads from a state to a state and carries one label on each of the two tapes.  Arcs are ordered by source,
upper label, lower label and target.
-/

namespace LexicalTransducer

/-- One arc of a net.  Labels are symbol numbers. -/
@[ext] structure Arc where
  source : Nat
  upper : Nat
  lower : Nat
  target : Nat
deriving DecidableEq, Repr

namespace Arc

def inverted (a : Arc) : Arc :=
  { a with upper := a.lower, lower := a.upper }

instance : Ord Arc where
  compare := compareLex (compareOn source)
    (compareLex (compareOn upper) (compareLex (compareOn lower) (compareOn target)))

theorem compare_def (a b : Arc) : compare a b =
    (compare a.source b.source).then ((compare a.upper b.upper).then
      ((compare a.lower b.lower).then (compare a.target b.target))) := rfl

instance : Std.TransOrd Arc :=
  inferInstanceAs (Std.TransCmp (compareLex (compareOn source)
    (compareLex (compareOn upper) (compareLex (compareOn lower) (compareOn target)))))

instance : Std.LawfulEqOrd Arc where
  eq_of_compare {a b} h := by
    rw [compare_def] at h
    simp only [Ordering.then_eq_eq, Nat.compare_eq_eq] at h
    exact Arc.ext h.1 h.2.1 h.2.2.1 h.2.2.2

/-- A label as an arc shows it.  A number without a symbol is shown behind a number sign. -/
def labelText (symbols : SymbolTable) (id : Nat) : String :=
  match symbols.get? id with
  | some s => s.text
  | none => s!"#{id}"

/-- The written form `0 ─a:b→ 1`, or `0 ─a→ 1` where both labels are one. -/
def text (symbols : SymbolTable) (a : Arc) : String :=
  let labels :=
    if a.upper = a.lower then labelText symbols a.upper
    else labelText symbols a.upper ++ ":" ++ labelText symbols a.lower
  s!"{a.source} ─" ++ labels ++ s!"→ {a.target}"

end Arc

inductive Tape
  | upper
  | lower
deriving DecidableEq, Repr

/-- The labels of an arc that is read along this tape: what it consumes and what it emits. -/
def Tape.labels (tape : Tape) (a : Arc) : Nat × Nat :=
  match tape with
  | .upper => (a.upper, a.lower)
  | .lower => (a.lower, a.upper)

end LexicalTransducer
