import TurtleCurves.Color.Refusal
import TurtleCurves.Grammar.Word
import TurtleCurves.Proofs.Color.Text
import TurtleCurves.Proofs.Text.Blank
import TurtleCurves.Settings.Value

namespace TurtleCurves

/-!
# Hexadecimal colours

Which texts are read as colours, and that writing and reading are inverse to each other.

* `Text.isHexDigit_iff`, `Rgb.hexValue?_hexDigit`, `Rgb.hexDigit_of_hexValue?` — digits and their
  values;
* `PaletteLink.IsGroup` — six hexadecimal digits, and `Rgb.isSome_ofHexDigits?`, which says that
  they are what is read as a colour;
* `Rgb.ofHexDigits?_hexDigits`, `Rgb.hexDigits_of_ofHexDigits?` — digits written are read back, and
  digits read are written back in lower case;
* `Rgb.Spells` — six digits in a text, with `#` in front of them and white space around;
  `Rgb.spells_iff`, `Rgb.read_of_spells`, `Rgb.read_of_not_spells` — they are what is read;
* `Text.splitBytes?`, `Rgb.readBytes?` — the same reading by byte offsets, where a cut may fall
  within a character; `Rgb.readBytes?_eq` — it never does.
-/

/-! ### Digits -/

/-- A hexadecimal digit is in one of three ranges. -/
theorem Text.isHexDigit_iff {c : Char} :
    isHexDigit c = true ↔ ('0' ≤ c ∧ c ≤ '9') ∨ ('a' ≤ c ∧ c ≤ 'f') ∨ ('A' ≤ c ∧ c ≤ 'F') := by
  unfold isHexDigit hexValue?
  split
  · simp [*]
  · split
    · simp [*]
    · split <;> simp [*]

/-- Its code is in one of three ranges. -/
theorem Text.isHexDigit_range {c : Char} (h : isHexDigit c = true) :
    (48 ≤ c.toNat ∧ c.toNat ≤ 57) ∨ (97 ≤ c.toNat ∧ c.toNat ≤ 102) ∨
      (65 ≤ c.toNat ∧ c.toNat ≤ 70) := isHexDigit_iff.mp h

/-- A hexadecimal digit is neither white space nor the sign in front of a colour. -/
theorem Text.isHexDigit_spec {c : Char} (h : isHexDigit c = true) :
    isBlank c = false ∧ c ≠ '#' := by
  have hall : ∀ n < 103, (48 ≤ n ∧ n ≤ 57) ∨ (97 ≤ n ∧ n ≤ 102) ∨ (65 ≤ n ∧ n ≤ 70) →
      blankPoints.contains n = false ∧ n ≠ 35 := by decide
  have hrange := isHexDigit_range h
  obtain ⟨hblank, hsign⟩ := hall c.toNat (by omega) hrange
  exact ⟨hblank, fun heq => hsign (congrArg Char.toNat heq)⟩

/-- A hexadecimal digit is one byte long. -/
theorem Text.utf8Size_of_isHexDigit {c : Char} (h : isHexDigit c = true) : c.utf8Size = 1 := by
  have hrange := isHexDigit_range h
  have hval : c.toNat ≤ 127 := by omega
  exact Char.utf8Size_eq_one_iff.mpr hval

namespace Rgb

/-- The digit of a number has that number for its value. -/
theorem hexValue?_hexDigit {n : Nat} (h : n < 16) : Text.hexValue? (hexDigit n) = some n := by
  have hall : ∀ n : Fin 16, Text.hexValue? (hexDigit n) = some n.val := by decide
  exact hall ⟨n, h⟩

/-- The value of a digit is below sixteen, and written as its lower case. -/
theorem hexDigit_of_hexValue? {c : Char} {n : Nat} (h : Text.hexValue? c = some n) :
    n < 16 ∧ hexDigit n = c.toLower := by
  -- All digits are below the 103rd code: they are looked through.
  have hall : ∀ k < 103, ∀ v ∈ Text.hexValue? (Char.ofNat k),
      v < 16 ∧ hexDigit v = (Char.ofNat k).toLower := by decide +kernel
  have hdigit : Text.isHexDigit c = true := by rw [Text.isHexDigit, h]; rfl
  have hrange := Text.isHexDigit_range hdigit
  have hc := hall c.toNat (by omega)
  rw [Char.ofNat_toNat] at hc
  exact hc n h

end Rgb

/-! ### Six digits -/

/-- Six hexadecimal digits. -/
structure PaletteLink.IsGroup (g : List Char) : Prop where
  length : g.length = 6
  digits : ∀ c ∈ g, Text.isHexDigit c = true

namespace PaletteLink.IsGroup

variable {g : List Char}

theorem ne_nil (hg : IsGroup g) : g ≠ [] := List.ne_nil_of_length_pos (by rw [hg.length]; omega)

/-- No white space stands at either end of them. -/
theorem trimmed (hg : IsGroup g) : Text.Trimmed g :=
  ⟨fun hne => (Text.isHexDigit_spec (hg.digits _ (List.head_mem hne))).1,
    fun hne => (Text.isHexDigit_spec (hg.digits _ (List.getLast_mem hne))).1⟩

/-- No sign is dropped in front of six digits. -/
theorem dropWhile_sign (hg : IsGroup g) : g.dropWhile (· == '#') = g := by
  obtain ⟨a, rest, rfl⟩ := List.exists_cons_of_ne_nil hg.ne_nil
  have hsign := (Text.isHexDigit_spec (hg.digits a List.mem_cons_self)).2
  exact List.dropWhile_cons_of_neg (by simpa using hsign)

end PaletteLink.IsGroup

namespace Rgb

/-- Two digits are a byte, and nothing else is. -/
theorem isSome_byteOfHex? (a b : Char) :
    (byteOfHex? a b).isSome = (Text.isHexDigit a && Text.isHexDigit b) := by
  unfold byteOfHex? Text.isHexDigit
  cases Text.hexValue? a <;> cases Text.hexValue? b <;> rfl

/-- **Six digits are a colour,** and nothing else is read as one. -/
theorem isSome_ofHexDigits? {g : List Char} :
    (ofHexDigits? g).isSome = true ↔ PaletteLink.IsGroup g := by
  unfold ofHexDigits?
  -- Six characters are read in pairs; any other number of them is no colour.
  split
  · next a b c d e f =>
    have hbytes := isSome_byteOfHex? a b
    have hbytes' := isSome_byteOfHex? c d
    have hbytes'' := isSome_byteOfHex? e f
    constructor
    · intro h
      cases hr : byteOfHex? a b <;> cases hg : byteOfHex? c d <;> cases hb : byteOfHex? e f <;>
        simp [hr, hg, hb] at h hbytes hbytes' hbytes''
      exact ⟨rfl, by simp [hbytes, hbytes', hbytes'']⟩
    · rintro ⟨-, h⟩
      simp only [List.forall_mem_cons] at h
      obtain ⟨ha, hb, hc, hd, he, hf, -⟩ := h
      rw [ha, hb] at hbytes
      rw [hc, hd] at hbytes'
      rw [he, hf] at hbytes''
      obtain ⟨red, hred⟩ := Option.isSome_iff_exists.mp hbytes
      obtain ⟨green, hgreen⟩ := Option.isSome_iff_exists.mp hbytes'
      obtain ⟨blue, hblue⟩ := Option.isSome_iff_exists.mp hbytes''
      rw [hred, hgreen, hblue]
      rfl
  · next hother =>
    refine iff_of_false (by simp) fun h => ?_
    match g, h.length with
    | [a, b, c, d, e, f], _ => exact hother a b c d e f rfl

/-- The byte of two digits is made of their values. -/
theorem byteOfHex?_eq_some_iff {a b : Char} {x : UInt8} :
    byteOfHex? a b = some x ↔
      ∃ h l, Text.hexValue? a = some h ∧ Text.hexValue? b = some l ∧
        UInt8.ofNat (16 * h + l) = x := by
  unfold byteOfHex?
  cases Text.hexValue? a <;> cases Text.hexValue? b <;> simp

/-- The digits of a byte are read back. -/
theorem byteOfHex?_hexByte (x : UInt8) :
    byteOfHex? (hexDigit (x.toNat / 16)) (hexDigit (x.toNat % 16)) = some x := by
  have hx := x.toNat_lt
  refine byteOfHex?_eq_some_iff.mpr ⟨x.toNat / 16, x.toNat % 16, hexValue?_hexDigit (by omega),
    hexValue?_hexDigit (by omega), ?_⟩
  rw [Nat.div_add_mod, UInt8.ofNat_toNat]

/-- Digits that are read are written back in lower case. -/
theorem hexByte_of_byteOfHex? {a b : Char} {x : UInt8} (h : byteOfHex? a b = some x) :
    hexByte x = [a.toLower, b.toLower] := by
  obtain ⟨high, low, ha, hb, rfl⟩ := byteOfHex?_eq_some_iff.mp h
  obtain ⟨hhigh, hdigit⟩ := hexDigit_of_hexValue? ha
  obtain ⟨hlow, hdigit'⟩ := hexDigit_of_hexValue? hb
  have hnat : (UInt8.ofNat (16 * high + low)).toNat = 16 * high + low :=
    UInt8.toNat_ofNat_of_lt' (by rw [UInt8.size]; omega)
  have hdiv : (16 * high + low) / 16 = high := by omega
  have hmod : (16 * high + low) % 16 = low := by omega
  rw [hexByte, hnat, hdiv, hmod, hdigit, hdigit']

/-- The six digits of a colour are read back. -/
theorem ofHexDigits?_hexDigits (c : Rgb) : ofHexDigits? c.hexDigits = some c := by
  simp only [hexDigits, hexByte, List.cons_append, List.nil_append, ofHexDigits?,
    byteOfHex?_hexByte]
  rfl

/-- **Lower case.** Six digits that are read are written back in lower case. -/
theorem hexDigits_of_ofHexDigits? {g : List Char} {c : Rgb} (h : ofHexDigits? g = some c) :
    c.hexDigits = g.map Char.toLower := by
  unfold ofHexDigits? at h
  split at h
  · next a b c d e f =>
    cases hr : byteOfHex? a b <;> cases hg : byteOfHex? c d <;> cases hb : byteOfHex? e f <;>
      simp [hr, hg, hb] at h
    subst h
    rw [hexDigits, hexByte_of_byteOfHex? hr, hexByte_of_byteOfHex? hg, hexByte_of_byteOfHex? hb]
    rfl
  · cases h

/-! ### Texts of colours -/

/-- The text spells six digits: white space may stand around them, any number of `#` in front of
them, and nothing else. -/
def Spells (text g : List Char) : Prop :=
  PaletteLink.IsGroup g ∧ ∃ before signs after : List Char,
    text = before ++ (signs ++ g) ++ after ∧ (∀ c ∈ before, Text.isBlank c = true) ∧
      (∀ c ∈ signs, c = '#') ∧ ∀ c ∈ after, Text.isBlank c = true

/-- Signs in front of six digits leave nothing to trim. -/
theorem trimmed_signs {signs g : List Char} (hsigns : ∀ c ∈ signs, c = '#')
    (hg : PaletteLink.IsGroup g) : Text.Trimmed (signs ++ g) := by
  constructor
  · intro hne
    cases signs with
    | nil => exact hg.trimmed.head hne
    | cons c rest =>
      obtain rfl : c = '#' := hsigns c List.mem_cons_self
      rfl
  · intro hne
    rw [List.getLast_append_of_ne_nil hne hg.ne_nil]
    exact hg.trimmed.last hg.ne_nil

/-- **What is read** of a text are the digits that it spells. -/
theorem spells_iff {text g : List Char} :
    Spells text g ↔ PaletteLink.IsGroup g ∧ (Text.trim text).dropWhile (· == '#') = g := by
  constructor
  · rintro ⟨hg, before, signs, after, rfl, hbefore, hsigns, hafter⟩
    refine ⟨hg, ?_⟩
    rw [Text.trim_blanks hbefore hafter (trimmed_signs hsigns hg) (by simp [hg.ne_nil]),
      List.dropWhile_append_of_pos fun c hc => beq_iff_eq.mpr (hsigns c hc), hg.dropWhile_sign]
  -- The text is cut where trimming and dropping the signs have cut it.
  · rintro ⟨hg, rfl⟩
    obtain ⟨before, after, hbefore, hafter, htext⟩ := Text.exists_blanks text
    refine ⟨hg, before, (Text.trim text).takeWhile (· == '#'), after, ?_, hbefore,
      fun c hc => by simpa using List.mem_takeWhile_imp hc, hafter⟩
    rw [List.takeWhile_append_dropWhile]
    exact htext

/-- The colour of a text is that of the digits it spells. -/
theorem ofHex?_of_spells {text g : List Char} (h : Spells text g) :
    ofHex? text = ofHexDigits? g := by rw [ofHex?, (spells_iff.mp h).2]

/-- **A spelled colour is read.** -/
theorem read_of_spells {text : String} {g : List Char} {c : Rgb} (h : Spells text.toList g)
    (hc : ofHexDigits? g = some c) : read text = .ok c := by
  rw [read, ofHex?_of_spells h, hc]
  rfl

/-- **Every other text is refused,** and the refusal names it as it was given. -/
theorem read_of_not_spells {text : String} (h : ¬ ∃ g, Spells text.toList g) :
    read text = .error (.invalidHex text) := by
  have hnone : ofHex? text.toList = none := by
    refine Option.eq_none_iff_forall_not_mem.mpr fun c hc => h ⟨_, spells_iff.mpr ⟨?_, rfl⟩⟩
    exact isSome_ofHexDigits?.mp (Option.isSome_iff_exists.mpr ⟨c, hc⟩)
  rw [read, hnone]
  rfl

/-- Around six digits there is nothing to trim: as a text of their own they are the same colour. -/
theorem read_of_isGroup {g : List Char} (hg : PaletteLink.IsGroup g) {c : Rgb}
    (hc : ofHexDigits? g = some c) : read (String.ofList g) = .ok c := by
  refine read_of_spells (g := g) ?_ hc
  rw [String.toList_ofList]
  exact ⟨hg, [], [], [], by simp, by simp, by simp, by simp⟩

/-- The text of a colour spells its digits. -/
theorem spells_hex (c : Rgb) : Spells c.hex.toList c.hexDigits := by
  refine ⟨isSome_ofHexDigits?.mp (by rw [ofHexDigits?_hexDigits]; rfl), [], ['#'], [], ?_,
    by simp, by simp, by simp⟩
  rw [hex, String.toList_ofList, List.append_nil]
  rfl

/-- The text of a colour is that colour. -/
theorem ofHex?_hex (c : Rgb) : ofHex? c.hex.toList = some c :=
  (ofHex?_of_spells (spells_hex c)).trans (ofHexDigits?_hexDigits c)

/-- **The text of a colour is read back.** -/
theorem read_hex (c : Rgb) : read c.hex = .ok c :=
  read_of_spells (spells_hex c) (ofHexDigits?_hexDigits c)

end Rgb

/-! ### Byte offsets -/

namespace Text

/-- A text split behind its first `n` bytes.  No split is behind the end of the text or within a
character. -/
def splitBytes? : Nat → List Char → Option (List Char × List Char)
  | 0, cs => some ([], cs)
  | _ + 1, [] => none
  | n + 1, c :: cs =>
    if c.utf8Size ≤ n + 1 then
      (splitBytes? (n + 1 - c.utf8Size) cs).map fun split => (c :: split.1, split.2)
    else none

/-- The part of a text between two byte offsets. -/
def sliceBytes? (first last : Nat) (cs : List Char) : Option (List Char) := do
  let (_, behind) ← splitBytes? first cs
  let (slice, _) ← splitBytes? (last - first) behind
  return slice

/-- Where every character is one byte long, every offset is between two of them. -/
theorem splitBytes?_of_singles {cs : List Char} (h : ∀ c ∈ cs, c.utf8Size = 1) {n : Nat}
    (hn : n ≤ cs.length) : splitBytes? n cs = some (cs.take n, cs.drop n) := by
  induction cs generalizing n with
  | nil =>
    obtain rfl : n = 0 := Nat.le_zero.mp hn
    rfl
  | cons c cs ih =>
    cases n with
    | zero => rfl
    | succ n =>
      obtain ⟨hc, hcs⟩ := List.forall_mem_cons.mp h
      rw [splitBytes?, hc, if_pos (Nat.le_add_left 1 n), Nat.add_sub_cancel,
        ih hcs (Nat.le_of_succ_le_succ hn)]
      rfl

/-- Where every character is one byte long, a slice of bytes is one of characters. -/
theorem sliceBytes?_of_singles {cs : List Char} (h : ∀ c ∈ cs, c.utf8Size = 1) {first last : Nat}
    (horder : first ≤ last) (hlast : last ≤ cs.length) :
    sliceBytes? first last cs = some ((cs.drop first).take (last - first)) := by
  have hbehind : ∀ c ∈ cs.drop first, c.utf8Size = 1 := fun c hc => h c (List.mem_of_mem_drop hc)
  have hroom : last - first ≤ (cs.drop first).length := by
    rw [List.length_drop]
    omega
  simp only [sliceBytes?, splitBytes?_of_singles h (Nat.le_trans horder hlast),
    splitBytes?_of_singles hbehind hroom, Option.bind_eq_bind, Option.bind_some]
  rfl

/-- There are as many bytes as characters. -/
theorem byteLength_of_singles {cs : List Char} (h : ∀ c ∈ cs, c.utf8Size = 1) :
    Word.byteLength cs = cs.length := by
  induction cs with
  | nil => rfl
  | cons c cs ih =>
    obtain ⟨hc, hcs⟩ := List.forall_mem_cons.mp h
    rw [Word.byteLength_cons, hc, ih hcs, List.length_cons, Nat.add_comm]

end Text

namespace Rgb

/-- The byte of the two hexadecimal digits at a byte offset.  The outer `none` is a cut within a
character, the inner one a pair that is no byte. -/
def channelAt? (i : Nat) (digits : List Char) : Option (Option UInt8) :=
  (Text.sliceBytes? i (i + 2) digits).map fun pair =>
    ((Bare.digitsValue? 16 pair).filter (· < 256)).map UInt8.ofNat

/-- The colour of a text by byte offsets: six bytes are asked for, all of them digits, and are cut
in three.  `none` is a cut within a character. -/
def readBytes? (text : String) : Option (Except ColorRefusal Rgb) :=
  let digits := (Text.trim text.toList).dropWhile (· == '#')
  if Word.byteLength digits ≠ 6 ∨ digits.all Text.isHexDigit = false then
    some (.error (.invalidHex text))
  else do
    let red ← channelAt? 0 digits
    let green ← channelAt? 2 digits
    let blue ← channelAt? 4 digits
    return (ColorRefusal.invalidHex text).orElse do return ⟨← red, ← green, ← blue⟩

/-- A hexadecimal digit is a digit to the base sixteen. -/
theorem digitValue?_of_hexValue? {c : Char} {n : Nat} (h : Text.hexValue? c = some n) :
    Bare.digitValue? 16 c = some n := by
  rw [Bare.digitValue?, h, Option.filter_some, if_pos (decide_eq_true (hexDigit_of_hexValue? h).1)]

/-- Two digits to the base sixteen are the byte that they spell. -/
theorem digitsValue?_pair (a b : Char) :
    ((Bare.digitsValue? 16 [a, b]).filter (· < 256)).map UInt8.ofNat = byteOfHex? a b := by
  cases ha : Text.hexValue? a with
  | none => simp [Bare.digitsValue?, Bare.digitValue?, byteOfHex?, ha]
  | some high =>
    cases hb : Text.hexValue? b with
    | none => simp [Bare.digitsValue?, Bare.digitValue?, byteOfHex?, ha, hb]
    | some low =>
      have hhigh := (hexDigit_of_hexValue? ha).1
      have hlow := (hexDigit_of_hexValue? hb).1
      -- Two digits make at most 255, so the filter lets the number pass.
      have hbyte : 16 * high + low < 256 := by omega
      have hpair : Bare.digitsValue? 16 [a, b] = some (16 * high + low) := by
        simp [Bare.digitsValue?, digitValue?_of_hexValue? ha, digitValue?_of_hexValue? hb]
      rw [hpair, Option.filter_some, if_pos (decide_eq_true hbyte), byteOfHex?, ha, hb]
      rfl

/-- Six digits are six bytes, and cut in three. -/
theorem channelAt?_of_isGroup {a b c d e f : Char} (hg : PaletteLink.IsGroup [a, b, c, d, e, f]) :
    channelAt? 0 [a, b, c, d, e, f] = some (byteOfHex? a b) ∧
      channelAt? 2 [a, b, c, d, e, f] = some (byteOfHex? c d) ∧
      channelAt? 4 [a, b, c, d, e, f] = some (byteOfHex? e f) := by
  have hsingles : ∀ x ∈ [a, b, c, d, e, f], x.utf8Size = 1 :=
    fun x hx => Text.utf8Size_of_isHexDigit (hg.digits x hx)
  -- The three cuts differ in their offset only.
  refine ⟨?_, ?_, ?_⟩
  all_goals
    rw [channelAt?, Text.sliceBytes?_of_singles hsingles (by omega) (by simp), Option.map_some,
      ← digitsValue?_pair]
    rfl

/-- **No cut within a character.** Reading by byte offsets never cuts a character, and reads the
same. -/
theorem readBytes?_eq (text : String) : readBytes? text = some (read text) := by
  rw [readBytes?, read, ofHex?]
  by_cases hg : PaletteLink.IsGroup ((Text.trim text.toList).dropWhile (· == '#'))
  · generalize (Text.trim text.toList).dropWhile (· == '#') = digits at hg ⊢
    match digits, hg.length with
    | [a, b, c, d, e, f], _ =>
      obtain ⟨hred, hgreen, hblue⟩ := channelAt?_of_isGroup hg
      have hbytes : Word.byteLength [a, b, c, d, e, f] = 6 :=
        Text.byteLength_of_singles fun x hx => Text.utf8Size_of_isHexDigit (hg.digits x hx)
      have hdigits : [a, b, c, d, e, f].all Text.isHexDigit = true := List.all_eq_true.mpr hg.digits
      simp only [hbytes, hdigits, hred, hgreen, hblue]
      rfl
  · -- Six bytes that are all digits would be six digits.
    have hguard : Word.byteLength ((Text.trim text.toList).dropWhile (· == '#')) ≠ 6 ∨
        ((Text.trim text.toList).dropWhile (· == '#')).all Text.isHexDigit = false := by
      refine Decidable.or_iff_not_imp_right.mpr fun hall hbytes => hg ?_
      have hdigits := List.all_eq_true.mp (Bool.not_eq_false _ ▸ hall)
      refine ⟨?_, hdigits⟩
      rw [← Text.byteLength_of_singles fun x hx => Text.utf8Size_of_isHexDigit (hdigits x hx)]
      exact hbytes
    have hnone : ofHexDigits? ((Text.trim text.toList).dropWhile (· == '#')) = none :=
      Option.not_isSome_iff_eq_none.mp fun h => hg (isSome_ofHexDigits?.mp h)
    simp only [if_pos hguard, hnone]
    rfl

end Rgb

end TurtleCurves
