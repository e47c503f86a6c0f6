import TurtleCurves.Color.Rgb

namespace TurtleCurves

/-!
# Palettes

* `Palette` — a list of stops that is never empty;
* `Palette.get`, `Palette.set` — the stop of an index, wrapping around, and its replacement;
* `Palette.gradient` — piecewise linear interpolation over the stops.
-/

/-- Colour stops in order; there is at least one. -/
structure Palette where
  colors : List Rgb
  ne_nil : colors ≠ []
  deriving DecidableEq

namespace Palette

theorem ext {p q : Palette} (h : p.colors = q.colors) : p = q := by
  cases p; cases q; cases h; rfl

/-- The palette of a list; an empty list stands for a single black stop. -/
def ofList : List Rgb → Palette
  | [] => ⟨[Rgb.black], by simp⟩
  | c :: cs => ⟨c :: cs, by simp⟩

/-- The palette that is used when none is chosen. -/
def default : Palette :=
  ofList [⟨0x00, 0x00, 0x00⟩, ⟨0x4a, 0x90, 0xd9⟩, ⟨0xe8, 0x43, 0x93⟩, ⟨0xf5, 0xa6, 0x23⟩,
    ⟨0x7e, 0xd3, 0x21⟩]

instance : Inhabited Palette := ⟨default⟩

/-- The number of stops. -/
def size (p : Palette) : Nat := p.colors.length

theorem size_pos (p : Palette) : 0 < p.size := List.length_pos_iff.2 p.ne_nil

/-- The stop of an index, wrapping around the palette. -/
def get (p : Palette) (i : Nat) : Rgb :=
  p.colors.get ⟨i % p.size, Nat.mod_lt i p.size_pos⟩

/-- The palette with another colour at an index; an index beyond the end changes nothing. -/
def set (p : Palette) (i : Nat) (c : Rgb) : Palette :=
  ⟨p.colors.set i c, by
    intro h
    have := congrArg List.length h
    simp only [List.length_set, List.length_nil] at this
    exact p.ne_nil (List.length_eq_zero_iff.1 this)⟩

@[simp] theorem size_set (p : Palette) (i : Nat) (c : Rgb) : (p.set i c).size = p.size :=
  List.length_set

variable {α : Type} [Arith α]

/-- The colour at `t`: the stops lie evenly from `0` to `1`, and between two of them the colour
is their mixture. -/
def gradient (p : Palette) (t : α) : Rgb :=
  if p.size = 1 then p.get 0
  else
    let along := Arith.clamp 0 1 t * Arith.ofNat (p.size - 1)
    let i := min (Arith.truncateNat (Arith.floor along)) (p.size - 2)
    (p.get i).blend (p.get (i + 1)) (along - Arith.ofNat i)

end Palette

end TurtleCurves
