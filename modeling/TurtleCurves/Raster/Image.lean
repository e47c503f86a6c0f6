import TurtleCurves.Color.Rgb

namespace TurtleCurves

/-!
# Images

* `Image` — rows of pixels; a pixel that was never painted is transparent, every other one is
  opaque;
* `Image.clear`, `Image.fill`, `Image.fillSpan` — a new image, one colour everywhere, one
  colour on a part of a row;
* `Image.pixel?` — the view of an image.
-/

/-- A part of a row of pixels: the columns `first … last`, none if they are out of order. -/
structure Span where
  row : Int
  first : Int
  last : Int
  deriving DecidableEq, Repr

/-- The number of columns of a span. -/
def Span.count (s : Span) : Nat := (s.last + 1 - s.first).toNat

/-- Rows of pixels, from the top and from the left; `none` is transparent. -/
structure Image where
  width : Nat
  height : Nat
  pixels : Array (Option Rgb)
  size_eq : pixels.size = width * height

namespace Image

/-- An image that is transparent everywhere. -/
def clear (width height : Nat) : Image :=
  ⟨width, height, Array.replicate (width * height) none, Array.size_replicate⟩

/-- The pixel in a column of a row; `none` outside the image. -/
def pixel? (img : Image) (x y : Nat) : Option (Option Rgb) :=
  if x < img.width ∧ y < img.height then img.pixels[y * img.width + x]? else none

/-- One colour everywhere. -/
def fill (img : Image) (c : Rgb) : Image :=
  { img with
    pixels := Array.replicate (img.width * img.height) (some c)
    size_eq := Array.size_replicate }

/-- `count` pixels from index `i` on in one colour. -/
def fillFrom (c : Option Rgb) (pixels : Array (Option Rgb)) (i : Nat) :
    Nat → Array (Option Rgb)
  | 0 => pixels
  | count + 1 => fillFrom c (pixels.setIfInBounds i c) (i + 1) count

@[simp] theorem size_fillFrom (c : Option Rgb) (pixels : Array (Option Rgb)) (i n : Nat) :
    (fillFrom c pixels i n).size = pixels.size := by
  induction n generalizing pixels i with
  | zero => rfl
  | succ n ih => simp [fillFrom, ih]

/-- One colour on a part of a row. -/
def fillSpan (c : Rgb) (img : Image) (s : Span) : Image :=
  let ⟨width, height, pixels, size_eq⟩ := img
  ⟨width, height,
    fillFrom (some c) pixels (s.row.toNat * width + s.first.toNat) s.count,
    by simp [size_eq]⟩

/-- One colour on several parts of rows. -/
def fillSpans (c : Rgb) (img : Image) (spans : List Span) : Image := spans.foldl (fillSpan c) img

@[simp] theorem width_fillSpan (c : Rgb) (img : Image) (s : Span) :
    (fillSpan c img s).width = img.width := rfl

@[simp] theorem height_fillSpan (c : Rgb) (img : Image) (s : Span) :
    (fillSpan c img s).height = img.height := rfl

/-- The pixels of a row from left to right. -/
def row (img : Image) (y : Nat) : List (Option Rgb) :=
  (img.pixels.extract (y * img.width) ((y + 1) * img.width)).toList

/-- The rows of an image from the top. -/
def rows (img : Image) : List (List (Option Rgb)) := (List.range img.height).map img.row

end Image

end TurtleCurves
