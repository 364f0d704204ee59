import Mathlib.Data.List.Forall2
import Mathlib.Data.List.Induction

/-!
# Rows of steps

A row of steps works through a list, one element a step.  It can be cut where the list is cut (`append_iff`).  What
every step keeps holds at its end: a property of the elements read so far, which each step extends by one
(`accumulate`), one of the states alone (`invariant`), or one between two rows that go side by side (`lockstep`).
-/

namespace LexicalTransducer

/-- A row of steps, one for each element of a list. -/
inductive Steps {σ α : Type} (step : σ → α → σ → Prop) : σ → List α → σ → Prop
  | nil (x : σ) : Steps step x [] x
  | cons {x y z : σ} {a : α} {as : List α} (h : step x a y) (hs : Steps step y as z) : Steps step x (a :: as) z

namespace Steps

variable {σ α β : Type} {step : σ → α → σ → Prop} {x y z : σ} {a : α} {as bs : List α}

theorem nil_iff : Steps step x [] y ↔ y = x := by
  constructor
  · intro h
    cases h
    rfl
  · rintro rfl
    exact .nil _

theorem cons_iff : Steps step x (a :: as) z ↔ ∃ y, step x a y ∧ Steps step y as z := by
  constructor
  · intro h
    cases h with
    | cons h hs => exact ⟨_, h, hs⟩
  · rintro ⟨y, h, hs⟩
    exact .cons h hs

theorem append_iff : Steps step x (as ++ bs) z ↔ ∃ y, Steps step x as y ∧ Steps step y bs z := by
  induction as generalizing x with
  | nil => simp only [List.nil_append, nil_iff, exists_eq_left]
  | cons a as ih =>
    rw [List.cons_append, cons_iff]
    constructor
    · rintro ⟨y, h, hs⟩
      obtain ⟨w, hw, hw'⟩ := ih.1 hs
      exact ⟨w, .cons h hw, hw'⟩
    · rintro ⟨y, hs, hs'⟩
      obtain ⟨w, h, hw⟩ := cons_iff.1 hs
      exact ⟨w, h, ih.2 ⟨y, hw, hs'⟩⟩

theorem snoc_iff : Steps step x (as ++ [a]) z ↔ ∃ y, Steps step x as y ∧ step y a z := by
  rw [append_iff]
  constructor
  · rintro ⟨y, hs, h⟩
    obtain ⟨w, h, hw⟩ := cons_iff.1 h
    rw [nil_iff.1 hw]
    exact ⟨y, hs, h⟩
  · rintro ⟨y, hs, h⟩
    exact ⟨y, hs, .cons h (.nil z)⟩

/-- What every step extends by its element holds at the end of all elements if it holds at the start of none. -/
theorem accumulate {P : σ → List α → Prop} (extend : ∀ y as a z, P y as → step y a z → P z (as ++ [a]))
    (h : Steps step x as y) (hx : P x []) : P y as := by
  induction as using List.reverseRecOn generalizing y with
  | nil =>
    rw [nil_iff.1 h]
    exact hx
  | append_singleton as a ih =>
    obtain ⟨z, hs, ha⟩ := snoc_iff.1 h
    exact extend z as a y (ih hs) ha

/-- What every step keeps holds at the end if it holds at the start. -/
theorem invariant {I : σ → Prop} (keep : ∀ x a y, I x → step x a y → I y) (h : Steps step x as y) (hx : I x) :
    I y :=
  h.accumulate (P := fun x _ => I x) (fun x _ => keep x) hx

/-- What every two steps side by side keep holds between the ends if it holds between the starts. -/
theorem lockstep {τ : Type} {step' : τ → β → τ → Prop} {f : α → β} {R : σ → τ → Prop} {x' y' : τ}
    (keep : ∀ x x' y y', ∀ a ∈ as, R x x' → step x a y → step' x' (f a) y' → R y y') (h : Steps step x as y)
    (h' : Steps step' x' (as.map f) y') (hx : R x x') : R y y' := by
  induction h generalizing x' with
  | nil =>
    rw [nil_iff.1 h']
    exact hx
  | @cons x y z a as h _ ih =>
    obtain ⟨z', hstep, hs⟩ := cons_iff.1 h'
    exact ih (fun x x' y y' b hb => keep x x' y y' b (List.mem_cons_of_mem _ hb)) hs
      (keep x x' y z' a (List.mem_cons_self ..) hx h hstep)

/-- Steps that first read what they are given are a row of readings and a row of steps with what has been read. -/
theorem read_iff {read : α → β → Prop} {step : σ → β → σ → Prop} :
    Steps (fun x a y => ∃ e, read a e ∧ step x e y) x as z ↔
      ∃ es, List.Forall₂ read as es ∧ Steps step x es z := by
  induction as generalizing x with
  | nil =>
    constructor
    · intro h
      exact ⟨[], .nil, nil_iff.2 (nil_iff.1 h)⟩
    · rintro ⟨es, hr, hs⟩
      cases hr
      exact nil_iff.2 (nil_iff.1 hs)
  | cons a as ih =>
    constructor
    · intro h
      obtain ⟨y, ⟨e, he, hstep⟩, hs⟩ := cons_iff.1 h
      obtain ⟨es, hr, hs'⟩ := ih.1 hs
      exact ⟨e :: es, .cons he hr, .cons hstep hs'⟩
    · rintro ⟨es, hr, hs⟩
      cases hr with
      | @cons _ e _ es he hr =>
        obtain ⟨y, hstep, hs'⟩ := cons_iff.1 hs
        exact .cons ⟨e, he, hstep⟩ (ih.2 ⟨es, hr, hs'⟩)

end Steps

end LexicalTransducer
