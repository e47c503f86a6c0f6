import TurtleCurves.Geometry.Bounds
import TurtleCurves.Grammar.Basic
import TurtleCurves.Turtle.Symbol

namespace TurtleCurves

/-!
# The turtle's walk

A word is read from left to right.  The turtle keeps a pose and a stack of poses, and reports
what it does as a list of actions; every consumer of a word works on that list.

* `Gait` — the measures of a walk;
* `Action` — a stroke, a turn, a pose kept or restored;
* `Turtle`, `Turtle.step` — the turtle's state and what it does at one character;
* `walk` — the actions of a word and the last pose;
* `Walk.bounds` — the box around everything drawn.

A closing bracket without an open one is passed over, so that restoring always matches keeping.
-/

/-! ### Walking -/

/-- The measures of a walk. -/
structure Gait (α : Type) where
  /-- The length of one stroke. -/
  length : α
  /-- The angle of one turn, in degrees. -/
  angle : α
  /-- The first heading, in degrees. -/
  startAngle : α
  deriving DecidableEq, Repr

/-- The gait a grammar prescribes. -/
def Grammar.gait {α : Type} (g : Grammar α) : Gait α := ⟨g.length, g.angle, g.startAngle⟩

/-- Where the turtle is and where it looks, in radians. -/
structure Pose (α : Type) where
  position : Point α
  heading : α
  deriving DecidableEq, Repr

/-- A stroke that is being drawn. -/
structure Stroke (α : Type) where
  /-- How many strokes came before. -/
  index : Nat
  /-- How many poses are kept. -/
  depth : Nat
  /-- Where the pen is put down. -/
  start : Point α
  /-- Where the pen is lifted. -/
  stop : Point α
  /-- The letter that draws. -/
  symbol : Char
  deriving DecidableEq, Repr

/-- What the turtle does. -/
inductive Action (α : Type) where
  | draw (stroke : Stroke α)
  | turn (degrees : α)
  | push
  | pop
  deriving DecidableEq, Repr

/-- A turtle on its way. -/
structure Turtle (α : Type) where
  pose : Pose α
  /-- The kept poses, the last one first. -/
  saved : List (Pose α)
  /-- How many strokes have been drawn. -/
  drawn : Nat
  deriving DecidableEq, Repr

namespace Turtle

variable {α : Type} [Scalar α]

/-- The turtle before the first character: at the origin, looking along the first heading. -/
def start (g : Gait α) : Turtle α := ⟨⟨Point.origin, Scalar.radians g.startAngle⟩, [], 0⟩

/-- The pose one stroke ahead. -/
def forward (g : Gait α) (p : Pose α) : Pose α :=
  { p with
    position :=
      ⟨p.position.x + Scalar.cos p.heading * g.length,
       p.position.y + Scalar.sin p.heading * g.length⟩ }

/-- What the turtle does at one symbol, if anything, and its state afterwards. -/
def react (g : Gait α) (t : Turtle α) : Symbol → Option (Action α) × Turtle α
  | .letter c =>
    let next := forward g t.pose
    (some (.draw ⟨t.drawn, t.saved.length, t.pose.position, next.position, c⟩),
      { t with pose := next, drawn := t.drawn + 1 })
  | .turnLeft =>
    (some (.turn g.angle),
      { t with pose := { t.pose with heading := t.pose.heading + Scalar.radians g.angle } })
  | .turnRight =>
    (some (.turn (-g.angle)),
      { t with pose := { t.pose with heading := t.pose.heading - Scalar.radians g.angle } })
  | .push => (some .push, { t with saved := t.pose :: t.saved })
  | .pop =>
    match t.saved with
    | [] => (none, t)
    | p :: rest => (some .pop, { t with pose := p, saved := rest })
  | .other _ => (none, t)

/-- What the turtle does at one character. -/
def step (g : Gait α) (t : Turtle α) (c : Char) : Option (Action α) × Turtle α :=
  t.react g (.ofChar c)

/-- Reads a word from a given state; `done` holds the actions so far, the last one first. -/
def follow (g : Gait α) (t : Turtle α) (done : List (Action α)) : Word → List (Action α) × Turtle α
  | [] => (done.reverse, t)
  | c :: w =>
    match t.step g c with
    | (some a, t') => follow g t' (a :: done) w
    | (none, t') => follow g t' done w

/-- The actions of a word from a given state, and the state afterwards. -/
def read (g : Gait α) (t : Turtle α) (w : Word) : List (Action α) × Turtle α := t.follow g [] w

theorem follow_eq (g : Gait α) (t : Turtle α) (done : List (Action α)) (w : Word) :
    t.follow g done w = (done.reverse ++ (t.read g w).1, (t.read g w).2) := by
  induction w generalizing t done with
  | nil => simp [follow, read]
  | cons c w ih =>
    simp only [read, follow]
    rcases t.step g c with ⟨_ | a, t'⟩
    · simp only [ih t' done, ih t' []]; simp
    · simp only [ih t' (a :: done), ih t' [a]]; simp

@[simp] theorem read_nil (g : Gait α) (t : Turtle α) : t.read g [] = ([], t) := rfl

theorem read_cons (g : Gait α) (t : Turtle α) (c : Char) (w : Word) :
    t.read g (c :: w) =
      ((t.step g c).1.toList ++ ((t.step g c).2.read g w).1, ((t.step g c).2.read g w).2) := by
  simp only [read, follow]
  rcases t.step g c with ⟨_ | a, t'⟩
  · simp
  · simp only [follow_eq g t' [a]]; simp [read]

/-- Two words are read one after the other. -/
theorem read_append (g : Gait α) (t : Turtle α) (v w : Word) :
    t.read g (v ++ w) =
      ((t.read g v).1 ++ ((t.read g v).2.read g w).1, ((t.read g v).2.read g w).2) := by
  induction v generalizing t with
  | nil => simp
  | cons c v ih => simp [read_cons, ih]

end Turtle

/-! ### Whole walks -/

variable {α : Type} [Scalar α]

/-- The actions of a word and the pose after its last character. -/
def walk (g : Gait α) (w : Word) : List (Action α) × Pose α :=
  let (actions, t) := (Turtle.start g).read g w
  (actions, t.pose)

namespace Action

/-- Where a stroke ends; the other actions end nowhere. -/
def stop? : Action α → Option (Point α)
  | .draw s => some s.stop
  | _ => none

/-- The stroke of an action that draws. -/
def stroke? : Action α → Option (Stroke α)
  | .draw s => some s
  | _ => none

end Action

namespace Walk

/-- The strokes of a word in order. -/
def strokes (g : Gait α) (w : Word) : List (Stroke α) := (walk g w).1.filterMap Action.stroke?

/-- The box around the start and every stroke's end. -/
def bounds (g : Gait α) (w : Word) : Bounds α :=
  Bounds.atOrigin.hull ((walk g w).1.filterMap Action.stop?)

end Walk

end TurtleCurves
