import TurtleCurves.Geometry.Affine

namespace TurtleCurves

/-!
# Transform stacks

A drawing surface keeps a current affine map and copies of earlier ones.  New operations act on
the local side: a shift followed by a turn turns about the shifted origin.
-/

/-- The current map and the kept ones, the last one first. -/
structure Transform (α : Type) where
  current : Affine α
  saved : List (Affine α)
  deriving DecidableEq, Repr

namespace Transform

variable {α : Type}

/-- Nothing is moved and nothing is kept. -/
def initial [Arith α] : Transform α := ⟨Affine.identity, []⟩

/-- Another map acts before the current one. -/
def compose [Arith α] (t : Transform α) (m : Affine α) : Transform α :=
  { t with current := t.current.after m }

def shift [Arith α] (t : Transform α) (dx dy : α) : Transform α :=
  t.compose (Affine.shift dx dy)

def rotate [Scalar α] (t : Transform α) (angle : α) : Transform α :=
  t.compose (Affine.rotation angle)

def scale [Arith α] (t : Transform α) (factor : α) : Transform α :=
  t.compose (Affine.scaling factor)

/-- Keeps a copy of the current map. -/
def push (t : Transform α) : Transform α := { t with saved := t.current :: t.saved }

/-- Goes back to the map kept last; without one nothing changes. -/
def pop (t : Transform α) : Transform α :=
  match t.saved with
  | [] => t
  | m :: rest => ⟨m, rest⟩

/-- How many maps are kept. -/
def depth (t : Transform α) : Nat := t.saved.length

/-- The image of a point under the current map. -/
def apply [Arith α] (t : Transform α) (p : Point α) : Point α := t.current.apply p

@[simp] theorem pop_push (t : Transform α) : t.push.pop = t := rfl

@[simp] theorem depth_push (t : Transform α) : t.push.depth = t.depth + 1 := rfl

end Transform

end TurtleCurves
