import TurtleCurves.Raster.Image

namespace TurtleCurves

namespace Png

/-!
# Image files

An image as the bytes of a PNG file: eight bits for each of red, green, blue and opacity.

A file is a signature and three chunks.  Every chunk has its length before it and a cyclic
checksum after it.  The pixels are a zlib stream of stored blocks, so that nothing has to be
searched for: each block repeats up to 65535 bytes of the rows, and a row has a zero before it
because it is not filtered.

* `crc`, `adler` — the two checksums;
* `stored` — bytes as a zlib stream;
* `Image.png` — the file.
-/

/-! ### Numbers -/

/-- Four bytes, the highest one first. -/
def word (n : UInt32) : List UInt8 :=
  [(n >>> 24).toUInt8, (n >>> 16).toUInt8, (n >>> 8).toUInt8, n.toUInt8]

/-- Two bytes, the lowest one first. -/
def halfWord (n : UInt16) : List UInt8 := [n.toUInt8, (n >>> 8).toUInt8]

def append (out : ByteArray) (bytes : List UInt8) : ByteArray := bytes.foldl ByteArray.push out

/-! ### Checksums -/

/-- One bit of a cyclic checksum. -/
def shift (c : UInt32) : UInt32 := if c &&& 1 = 1 then (c >>> 1) ^^^ 0xEDB88320 else c >>> 1

/-- Eight bits of a cyclic checksum. -/
def shiftByte (c : UInt32) : UInt32 :=
  shift (shift (shift (shift (shift (shift (shift (shift c)))))))

/-- The effect of every byte on a cyclic checksum. -/
def table : Array UInt32 := ((List.range 256).map fun n => shiftByte (UInt32.ofNat n)).toArray

/-- A cyclic checksum with one more byte. -/
def crcByte (table : Array UInt32) (c : UInt32) (b : UInt8) : UInt32 :=
  table.getD ((c ^^^ b.toUInt32) &&& 0xFF).toNat 0 ^^^ (c >>> 8)

/-- The cyclic checksum of bytes. -/
def crc (bytes : ByteArray) : UInt32 := bytes.foldl (crcByte table) 0xFFFFFFFF ^^^ 0xFFFFFFFF

/-- The two sums of a zlib checksum, both modulo the largest prime below `2 ^ 16`. -/
def adlerByte (sums : UInt32 × UInt32) (b : UInt8) : UInt32 × UInt32 :=
  let low := (sums.1 + b.toUInt32) % 65521
  (low, (sums.2 + low) % 65521)

/-- The zlib checksum of bytes. -/
def adler (bytes : ByteArray) : UInt32 :=
  let (low, high) := bytes.foldl adlerByte (1, 0)
  (high <<< 16) ||| low

/-! ### The zlib stream -/

/-- The largest number of bytes that one stored block holds. -/
def blockSize : Nat := 65535

/-- One stored block, with its length and the complement of its length before it. -/
def block (isLast : Bool) (bytes : ByteArray) : ByteArray :=
  let n := UInt16.ofNat bytes.size
  append ByteArray.empty ((if isLast then 1 else 0) :: halfWord n ++ halfWord (~~~ n)) ++ bytes

/-- `count` full blocks from a place on, and a last one with what is left. -/
def blocks (out bytes : ByteArray) (start : Nat) : Nat → ByteArray
  | 0 => out ++ block true (bytes.extract start bytes.size)
  | count + 1 =>
    blocks (out ++ block false (bytes.extract start (start + blockSize))) bytes
      (start + blockSize) count

/-- Bytes as a zlib stream that repeats them. -/
def stored (bytes : ByteArray) : ByteArray :=
  append (blocks (append ByteArray.empty [0x78, 0x01]) bytes 0 (bytes.size / blockSize))
    (word (adler bytes))

/-! ### The file -/

/-- The bytes that every file begins with. -/
def signature : List UInt8 := [0x89, 0x50, 0x4E, 0x47, 0x0D, 0x0A, 0x1A, 0x0A]

/-- A chunk: its length, its four letters, what it holds, and the checksum of both. -/
def chunk (out : ByteArray) (letters : List UInt8) (body : ByteArray) : ByteArray :=
  let named := append ByteArray.empty letters ++ body
  append (append out (word (UInt32.ofNat body.size)) ++ named) (word (crc named))

/-- The measures of an image and how its pixels are written. -/
def header (img : Image) : ByteArray :=
  append ByteArray.empty
    (word (UInt32.ofNat img.width) ++ word (UInt32.ofNat img.height) ++ [8, 6, 0, 0, 0])

/-- The four bytes of a pixel. -/
def pixelBytes (out : ByteArray) : Option Rgb → ByteArray
  | some c => (((out.push c.red).push c.green).push c.blue).push 255
  | none => (((out.push 0).push 0).push 0).push 0

/-- The rows of an image, each after the zero that leaves it unfiltered. -/
def scanLines (img : Image) : ByteArray :=
  img.rows.foldl (fun out row => row.foldl pixelBytes (out.push 0)) ByteArray.empty

end Png

/-- An image as the bytes of a file. -/
def Image.png (img : Image) : ByteArray :=
  let out := Png.append ByteArray.empty Png.signature
  let out := Png.chunk out [0x49, 0x48, 0x44, 0x52] (Png.header img)
  let out := Png.chunk out [0x49, 0x44, 0x41, 0x54] (Png.stored (Png.scanLines img))
  Png.chunk out [0x49, 0x45, 0x4E, 0x44] ByteArray.empty

end TurtleCurves
