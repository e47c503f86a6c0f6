import TurtleCurves.Explorer.Basic

namespace TurtleCurves

/-!
# Operations as data

* `Operation` — everything that can be asked of an explorer;
* `Explorer.perform`, `Explorer.performAll` — the state after it, and after a list;
* `Explorer.failure?` — the failure of an operation, if it does not happen;
* `Explorer.Reachable` — the states that settings and operations lead to;
* `Explorer.perform?`, `Explorer.performAll?`, `Explorer.Reached` — the same with a count of steps
  that ends with 32 bits: there is no state after a step that cannot be counted.
-/

/-- Everything that can be asked of an explorer. -/
inductive Operation (α : Type) where
  | load (key : String)
  | customize (editor : Editor α)
  | grow
  | rewind
  | toggle (now : Moment)
  | tick (now : Moment)
  | press (p : Point α)
  | move (p : Point α)
  | release
  | gesture (g : Viewport.Gesture α)
  | setColor (index : Nat) (color : Rgb)
  | importLink (link : List Char)
  | setSymbol (symbol : Char) (index : Nat)
  | setMode (mode : ColorMode)
  | setAxis (axis : PositionAxis)
  | setStrokeWidth (px : α)
  | setBackground (color : Rgb)
  | setPace (pace : Pace)
  | redraw
  | survey
  deriving DecidableEq

namespace Explorer

variable {α : Type} [Scalar α]

/-- The state after an operation. -/
def perform (e : Explorer α) : Operation α → Explorer α
  | .load key => (e.load key).2
  | .customize editor => (e.customize editor).2
  | .grow => e.grow.2
  | .rewind => e.rewind.2
  | .toggle now => (e.toggle now).2
  | .tick now => (e.tick now).2
  | .press p => e.gesture (.panStart p)
  | .move p => e.gesture (.panMove p)
  | .release => e.release.2
  | .gesture g => e.gesture g
  | .setColor i c => e.setColor i c
  | .importLink link => (e.importLink link).2
  | .setSymbol c i => e.setSymbol c i
  | .setMode mode => { e with colorMode := mode }
  | .setAxis axis => { e with axis := axis }
  | .setStrokeWidth px => { e with strokeWidth := px }
  | .setBackground c => { e with background := c }
  | .setPace pace => { e with pace := pace }
  | .redraw => e.redrawn
  | .survey => e.surveyed

/-- The state after a list of operations. -/
def performAll (e : Explorer α) (ops : List (Operation α)) : Explorer α := ops.foldl perform e

/-- The failure of an outcome. -/
def failureOf {β : Type} : Except (Failure α) β → Option (Failure α)
  | .ok _ => none
  | .error f => some f

/-- The failure of an operation, if it does not happen. -/
def failure? (e : Explorer α) : Operation α → Option (Failure α)
  | .load key => failureOf (e.load key).1
  | .customize editor => failureOf (e.customize editor).1
  | .grow => failureOf e.grow.1
  | .rewind => failureOf e.rewind.1
  | .toggle now => failureOf (e.toggle now).1
  | .release => failureOf e.release.1
  | .importLink link => failureOf (e.importLink link).1
  | _ => none

/-- The states that some settings, a canvas and a list of operations lead to. -/
inductive Reachable : Explorer α → Prop where
  | start (s : Settings α) (width height : α) : Reachable (ofSettings s width height)
  | step {e : Explorer α} (h : Reachable e) (op : Operation α) : Reachable (e.perform op)

/-! ### The count of steps -/

/-- How many steps led to the word on show; `0` when nothing is on show. -/
def steps (e : Explorer α) : Nat := (e.derivation.map Derivation.iteration).getD 0

/-- The state, if a word of 32 bits has room for its count of steps.  A step that cannot be counted
ends the program, so that nothing follows. -/
def counted? (e : Explorer α) : Option (Explorer α) :=
  if e.steps < UInt32.size then some e else none

/-- The state after an operation, if the program has not ended in it. -/
def perform? (e : Explorer α) (op : Operation α) : Option (Explorer α) := (e.perform op).counted?

/-- The state after a list of operations, if the program has not ended in one of them. -/
def performAll? (e : Explorer α) (ops : List (Operation α)) : Option (Explorer α) :=
  ops.foldlM perform? e

/-- The states that some settings, a canvas and operations lead to as long as every step can be
counted. -/
inductive Reached : Explorer α → Prop where
  | start (s : Settings α) (width height : α) : Reached (ofSettings s width height)
  | step {e e' : Explorer α} {op : Operation α} (h : Reached e) (hop : e.perform? op = some e') :
      Reached e'

end Explorer

end TurtleCurves
