import TurtleCurves.SortedMap
import TurtleCurves.View.Viewport

namespace TurtleCurves

/-!
# Touches

Fingers on a touch screen are told apart by numbers.  The two lowest numbers that are down make
a pinch, so that the same pair is used as long as both stay.

* `TouchEvent` — what is heard of one finger;
* `Touches` — the fingers that are down; `Touches.pair`, the two that pinch;
* `Pinch` — what a touch means for a pinch;
* `Touches.update` — one event: the pinch it means and the fingers after it;
* `Pinch.gesture` — a pinch as an operation on a viewport.
-/

/-! ### Events -/

/-- What happens to a finger. -/
inductive TouchPhase where
  /-- It is put down. -/
  | start
  /-- It is moved. -/
  | move
  /-- It is lifted. -/
  | finish
  /-- It is no longer heard of. -/
  | cancel
  deriving DecidableEq, Repr

/-- Something is heard of a finger. -/
structure TouchEvent (α : Type) where
  id : Nat
  phase : TouchPhase
  position : Point α
  deriving DecidableEq, Repr

/-- What a touch means for a pinch. -/
inductive Pinch (α : Type) where
  /-- A second finger has come down. -/
  | start (a b : Point α)
  /-- A finger has moved while two are down. -/
  | move (a b : Point α)
  /-- Fewer than two fingers are left; one that stays is told. -/
  | stop (remaining : Option (Point α))
  deriving DecidableEq, Repr

/-- The operation of a pinch on a viewport. -/
def Pinch.gesture {α : Type} : Pinch α → Viewport.Gesture α
  | .start a b => .pinchStart a b
  | .move a b => .pinchMove a b
  | .stop remaining => .pinchEnd remaining

/-! ### Fingers -/

/-- The fingers that are down, each with its place. -/
structure Touches (α : Type) where
  fingers : SortedMap Nat (Point α)

namespace Touches

variable {α : Type}

/-- No finger is down. -/
def none : Touches α := ⟨∅⟩

/-- How many fingers are down. -/
def count (t : Touches α) : Nat := t.fingers.size

/-- The places of the two fingers that pinch. -/
def pair (t : Touches α) : Option (Point α × Point α) :=
  match t.fingers.values with
  | a :: b :: _ => some (a, b)
  | _ => Option.none

/-- The fingers with one of them at a place. -/
def put (t : Touches α) (id : Nat) (p : Point α) : Touches α := ⟨t.fingers.insert id p⟩

/-- The fingers without one. -/
def lift (t : Touches α) (id : Nat) : Touches α := ⟨t.fingers.erase id⟩

/-- What a finger that is put down means: a pinch begins with the second one, a further one
means nothing. -/
def started (t : Touches α) : Option (Pinch α) :=
  if t.count = 2 then t.pair.map fun (a, b) => .start a b else Option.none

/-- What a finger that is moved means. -/
def moved (t : Touches α) : Option (Pinch α) := t.pair.map fun (a, b) => .move a b

/-- What it means that `t` is left of some fingers. -/
def lifted (before t : Touches α) : Option (Pinch α) :=
  if 2 ≤ before.count ∧ t.count < 2 then some (.stop t.fingers.values.head?) else Option.none

/-- One event: the pinch it means, and the fingers after it. -/
def update (t : Touches α) (e : TouchEvent α) : Option (Pinch α) × Touches α :=
  match e.phase with
  | .start => let t := t.put e.id e.position; (t.started, t)
  | .move => let t := t.put e.id e.position; (t.moved, t)
  | .finish | .cancel => let rest := t.lift e.id; (t.lifted rest, rest)

/-- The fingers after a list of events. -/
def updateAll (t : Touches α) (es : List (TouchEvent α)) : Touches α :=
  es.foldl (fun t e => (t.update e).2) t

end Touches

end TurtleCurves
