import TurtleCurves.Explorer.Basic

namespace TurtleCurves

/-!
# Several steps at once

* `Growth` — what is noted about one step;
* `Explorer.iterate` — a number of steps of growth by hand, up to the first refusal;
* `Explorer.iteratePreset` — the same on a preset, from settings.
-/

/-- What is noted about one step. -/
structure Growth where
  /-- How many steps have led to the word. -/
  iteration : Nat
  /-- The length of the word in bytes. -/
  size : Nat
  deriving DecidableEq, Repr

/-- Several steps. -/
structure Iteration (α : Type) where
  explorer : Explorer α
  /-- The steps that were taken, the last one first. -/
  taken : List Growth
  /-- Why the last step was not taken. -/
  refusal : Option (Failure α)

namespace Explorer

variable {α : Type} [Scalar α]

/-- What is noted about the word on show. -/
def growth (e : Explorer α) : Growth :=
  match e.derivation with
  | none => ⟨0, 0⟩
  | some d => ⟨d.iteration, d.size⟩

/-- Up to `n` steps of growth by hand; the first refusal ends them. -/
def iterateFrom (taken : List Growth) (e : Explorer α) : Nat → Iteration α
  | 0 => ⟨e, taken, none⟩
  | n + 1 =>
    match e.grow with
    | (.error failure, e) => ⟨e, taken, some failure⟩
    | (.ok _, e) => iterateFrom (e.growth :: taken) e n

/-- Up to `n` steps of growth by hand; the first refusal ends them. -/
def iterate (e : Explorer α) (n : Nat) : Iteration α := iterateFrom [] e n

/-- Up to `n` steps of a preset, in a square canvas. -/
def iteratePreset (s : Settings α) (key : String) (n : Nat) (side : α) :
    Except (Failure α) (Iteration α) :=
  match (ofSettings s side side).load key with
  | (.error failure, _) => .error failure
  | (.ok _, e) => .ok (e.iterate n)

end Explorer

end TurtleCurves
