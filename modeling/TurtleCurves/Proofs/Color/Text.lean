import TurtleCurves.Color.Mode
import TurtleCurves.Color.Palette

namespace TurtleCurves

/-!
# Texts of colours and modes

* `Rgb.length_toList_hex` — the text of a colour has seven characters;
* `Rgb.hex_injective` — it determines the colour;
* `Rgb.isAlphanum_of_mem_hex` — apart from `#` it has letters and digits only;
* `ColorMode.name_injective`, `PositionAxis.name_injective` — names tell modes and axes apart.
-/

/-! ### Colours -/

namespace Rgb

/-- Digits tell values below sixteen apart. -/
theorem hexDigit_injective {m n : Nat} (hm : m < 16) (hn : n < 16)
    (h : hexDigit m = hexDigit n) : m = n := by
  have hall : ∀ m : Fin 16, ∀ n : Fin 16, hexDigit m = hexDigit n → m = n := by decide
  exact congrArg Fin.val (hall ⟨m, hm⟩ ⟨n, hn⟩ h)

/-- Two digits tell bytes apart. -/
theorem hexByte_injective : Function.Injective hexByte := by
  intro b c h
  obtain ⟨hhigh, htail⟩ := List.cons.inj h
  obtain ⟨hlow, _⟩ := List.cons.inj htail
  have hb := b.toNat_lt
  have hc := c.toNat_lt
  have hhigh' := hexDigit_injective (by omega) (by omega) hhigh
  have hlow' := hexDigit_injective (by omega) (by omega) hlow
  apply UInt8.toNat_inj.mp
  omega

/-- The sign, and two digits for each channel. -/
theorem toList_hex (c : Rgb) :
    c.hex.toList = '#' :: (hexByte c.red ++ hexByte c.green ++ hexByte c.blue) :=
  String.toList_ofList

/-- Seven characters. -/
@[simp] theorem length_toList_hex (c : Rgb) : c.hex.toList.length = 7 := by
  rw [toList_hex]
  rfl

/-- **The text of a colour determines it.** -/
theorem hex_injective : Function.Injective hex := by
  intro c d h
  have hlist := congrArg String.toList h
  rw [toList_hex, toList_hex] at hlist
  -- Every channel takes two characters, so the parts are told apart by their length.
  obtain ⟨hrest, hblue⟩ := List.append_inj (List.cons.inj hlist).2 rfl
  obtain ⟨hred, hgreen⟩ := List.append_inj hrest rfl
  cases c
  cases d
  rw [Rgb.mk.injEq]
  exact ⟨hexByte_injective hred, hexByte_injective hgreen, hexByte_injective hblue⟩

/-- A hexadecimal digit is a letter or a digit. -/
theorem isAlphanum_hexDigit {n : Nat} (h : n < 16) : (hexDigit n).isAlphanum = true := by
  have hall : ∀ n : Fin 16, (hexDigit n).isAlphanum = true := by decide
  exact hall ⟨n, h⟩

/-- So are the two of a byte. -/
theorem isAlphanum_of_mem_hexByte {b : UInt8} {c : Char} (h : c ∈ hexByte b) :
    c.isAlphanum = true := by
  have hb := b.toNat_lt
  rw [hexByte, List.mem_cons, List.mem_singleton] at h
  rcases h with rfl | rfl
  · exact isAlphanum_hexDigit (by omega)
  · exact isAlphanum_hexDigit (by omega)

/-- Apart from the sign, so is everything in the text of a colour. -/
theorem isAlphanum_of_mem_hex {d : Rgb} {c : Char} (h : c ∈ d.hex.toList) :
    c = '#' ∨ c.isAlphanum = true := by
  rw [toList_hex, List.mem_cons, List.mem_append, List.mem_append] at h
  rcases h with h | (h | h) | h
  · exact .inl h
  · exact .inr (isAlphanum_of_mem_hexByte h)
  · exact .inr (isAlphanum_of_mem_hexByte h)
  · exact .inr (isAlphanum_of_mem_hexByte h)

end Rgb

/-! ### Modes and axes -/

/-- The name of a mode is read back. -/
theorem ColorMode.ofName?_name (m : ColorMode) : ofName? m.name = some m := by
  cases m <;> rfl

/-- **Names tell modes apart.** -/
theorem ColorMode.name_injective : Function.Injective ColorMode.name := by
  intro m m' h
  have hname := ofName?_name m
  rw [h, ofName?_name] at hname
  exact (Option.some.inj hname).symm

/-- The name of an axis is read back. -/
theorem PositionAxis.ofName?_name (a : PositionAxis) : ofName? a.name = some a := by
  cases a <;> rfl

/-- **Names tell axes apart.** -/
theorem PositionAxis.name_injective : Function.Injective PositionAxis.name := by
  intro a a' h
  have hname := ofName?_name a
  rw [h, ofName?_name] at hname
  exact (Option.some.inj hname).symm

end TurtleCurves
