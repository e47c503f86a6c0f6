import TurtleCurves.Turtle.Walk

namespace TurtleCurves

/-!
# Derivations

A grammar together with the word it has grown to.

* `Derivation` — the present word, how many steps led to it, and measurements kept from
  earlier readings;
* `start`, `grow`, `growWithin`, `rewind` — the operations; growing is refused once the word is
  longer than a ceiling;
* `segmentCount`, `bounds` — measurements, taken from the notes when there are any;
* `noteSegments`, `noteBounds` — the same measurements, remembered until the word changes.
-/

/-- A grammar and its present word. -/
structure Derivation (α : Type) where
  grammar : Grammar α
  /-- The present word. -/
  sentence : Word
  /-- How many steps led from the seed to it; `Explorer.counted?` says how far a program counts. -/
  iteration : Nat
  /-- The letters that can ever draw. -/
  alphabet : List Char
  /-- The number of strokes, once it has been counted. -/
  segmentNote : Option Nat
  /-- The box around the drawing, once it has been measured. -/
  boundsNote : Option (Bounds α)

/-- Why a word does not grow: it is already longer than the ceiling. -/
structure Overgrown where
  length : Nat
  ceiling : Nat
  deriving DecidableEq, Repr

/-- The wording of a refusal. -/
def Overgrown.message (o : Overgrown) : String :=
  "Sentence exceeds " ++ toString o.ceiling ++ " characters (" ++ toString o.length ++
    "). Reset to continue."

namespace Derivation

variable {α : Type}

/-! ### Growing -/

/-- The seed of a grammar, before any step. -/
def start (g : Grammar α) : Derivation α := ⟨g, g.seed, 0, g.alphabet, none, none⟩

/-- The length of the word in bytes. -/
def size (d : Derivation α) : Nat := d.sentence.byteLength

/-- Another word takes the place of the present one; notes about that one are dropped. -/
def replace (d : Derivation α) (w : Word) (iteration : Nat) : Derivation α :=
  { d with sentence := w, iteration := iteration, segmentNote := none, boundsNote := none }

/-- One step of growth. -/
def grow (d : Derivation α) : Derivation α :=
  d.replace (d.grammar.rules.apply d.sentence) (d.iteration + 1)

/-- Back to the seed. -/
def rewind (d : Derivation α) : Derivation α := d.replace d.grammar.seed 0

/-- One step of growth, refused when the word is already longer than the ceiling. -/
def growWithin (d : Derivation α) (ceiling : Nat) : Except Overgrown (Derivation α) :=
  if ceiling < d.size then .error ⟨d.size, ceiling⟩ else .ok d.grow

/-- A word within the ceiling takes a step. -/
theorem growWithin_of_le {d : Derivation α} {ceiling : Nat} (h : d.size ≤ ceiling) :
    d.growWithin ceiling = .ok d.grow := if_neg (by omega)

/-- A longer one is refused it. -/
theorem growWithin_of_lt {d : Derivation α} {ceiling : Nat} (h : ceiling < d.size) :
    d.growWithin ceiling = .error ⟨d.size, ceiling⟩ := if_pos h

/-! ### Measuring -/

/-- The number of strokes. -/
def segmentCount (d : Derivation α) : Nat := d.segmentNote.getD d.sentence.strokes

/-- The box around the drawing. -/
def bounds [Scalar α] (d : Derivation α) : Bounds α :=
  match d.boundsNote with
  | some b => b
  | none => Walk.bounds d.grammar.gait d.sentence

/-- Counts the strokes and remembers the number. -/
def noteSegments (d : Derivation α) : Derivation α :=
  { d with segmentNote := some d.segmentCount }

/-- Measures the box and remembers it. -/
def noteBounds [Scalar α] (d : Derivation α) : Derivation α :=
  { d with boundsNote := some d.bounds }

@[simp] theorem segmentCount_noteSegments (d : Derivation α) :
    d.noteSegments.segmentCount = d.segmentCount := rfl

@[simp] theorem bounds_noteBounds [Scalar α] (d : Derivation α) :
    d.noteBounds.bounds = d.bounds := rfl

end Derivation

end TurtleCurves
