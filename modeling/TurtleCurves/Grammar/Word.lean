namespace TurtleCurves

/-!
# Words

A word is the text that a grammar expands and the turtle reads.

* `Word` — a list of characters;
* `Word.byteLength` — its length in UTF-8, which growth limits count;
* `Word.isStroke`, `Word.strokes` — the letters that draw, and how many there are;
* `Word.letters` — which letters draw, each once, in order.
-/

/-- A text to be expanded and read as turtle moves. -/
abbrev Word := List Char

namespace Word

/-- The length of a word in UTF-8 bytes. -/
def byteLength (w : Word) : Nat := w.foldl (fun n c => n + c.utf8Size) 0

/-- A count that begins elsewhere goes as far. -/
theorem foldl_utf8Size (w : Word) (n : Nat) :
    w.foldl (fun n c => n + c.utf8Size) n = n + byteLength w := by
  induction w generalizing n with
  | nil => rfl
  | cons c w ih =>
    have h0 := ih (0 + c.utf8Size)
    have hn := ih (n + c.utf8Size)
    simp only [byteLength, List.foldl_cons] at h0 hn ⊢
    omega

@[simp] theorem byteLength_nil : byteLength [] = 0 := rfl

@[simp] theorem byteLength_cons (c : Char) (w : Word) :
    byteLength (c :: w) = c.utf8Size + byteLength w := by
  rw [byteLength, List.foldl_cons, foldl_utf8Size, Nat.zero_add]

/-- Bytes add up. -/
@[simp] theorem byteLength_append (v w : Word) :
    byteLength (v ++ w) = byteLength v + byteLength w := by
  rw [byteLength, List.foldl_append, foldl_utf8Size]; rfl

/-- A character that draws: an upper-case letter of the basic Latin alphabet. -/
def isStroke (c : Char) : Bool := c.isUpper

/-- The number of characters that draw. -/
def strokes (w : Word) : Nat := w.countP isStroke

/-- Strokes add up. -/
@[simp] theorem strokes_append (v w : Word) : strokes (v ++ w) = strokes v + strokes w :=
  List.countP_append

/-- The basic Latin capitals in order. -/
def capitals : List Char := (List.range 26).map fun i => Char.ofNat (65 + i)

/-- The letters that draw in some word of a list, each once, in alphabetical order. -/
def letters (ws : List Word) : List Char :=
  capitals.filter fun c => ws.any fun w => w.contains c

end Word

end TurtleCurves
