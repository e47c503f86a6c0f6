import TurtleCurves.Proofs.Color.Hex
import TurtleCurves.Proofs.Settings.Fields

namespace TurtleCurves

/-!
# Colours in settings

Colours stand in settings as `#rrggbb`, palettes as lists of such texts.

* `Value.color?_ofColor`, `Palette.ofValue?_toValue` — what is stored is what is read again;
* `Rgb.read_spelling` — exactly the texts that spell six digits are read as colours; they are
  written in lower case, no cut falls within a character, and what is written is read again.
-/

variable {α : Type}

namespace Value

/-- A stored colour is read again. -/
@[simp] theorem color?_ofColor (c : Rgb) : color? (ofColor c : Value α) = some c := by
  rw [color?, ofColor, text?_ofString, Option.bind_some]
  exact Rgb.ofHex?_hex c

end Value

namespace Palette

/-- A palette is put together again from its stops. -/
theorem ofList_colors (p : Palette) : ofList p.colors = p := by
  obtain ⟨colors, hne⟩ := p
  obtain ⟨c, cs, rfl⟩ := List.exists_cons_of_ne_nil hne
  rfl

/-- A stored palette is read again. -/
@[simp] theorem ofValue?_toValue (p : Palette) : ofValue? (p.toValue : Value α) = some p := by
  have hitems : (p.toValue : Value α).items? = some (p.colors.map Value.ofColor) := rfl
  have hcolors : (p.colors.map Value.ofColor).mapM (Value.color? (α := α)) = some p.colors :=
    Value.mapM_written_self Value.color?_ofColor p.colors
  rw [ofValue?, hitems]
  simp only [Option.bind_eq_bind, Option.bind_some, hcolors]
  exact congrArg some (ofList_colors p)

end Palette

/-- **Colours as texts.** A text is a colour exactly if it spells six hexadecimal digits, and the
colour is written with these digits in lower case.  Every other text is refused by name.  No text
is cut within a character on the way.  What is written of a colour or a palette is read again. -/
theorem Rgb.read_spelling :
    (∀ text : String, (∃ c, read text = .ok c) ↔ ∃ g, Spells text.toList g) ∧
      (∀ (text : String) (c : Rgb) (g : List Char), read text = .ok c → Spells text.toList g →
        c.hex = String.ofList ('#' :: g.map Char.toLower)) ∧
      (∀ text : String, (¬ ∃ g, Spells text.toList g) → read text = .error (.invalidHex text)) ∧
      (∀ text : String, readBytes? text = some (read text)) ∧
      (∀ c : Rgb, read c.hex = .ok c ∧ Value.color? (Value.ofColor c : Value α) = some c) ∧
      ∀ p : Palette, Palette.ofValue? (p.toValue : Value α) = some p := by
  have hsome : ∀ {g : List Char}, PaletteLink.IsGroup g → ∃ c, ofHexDigits? g = some c := fun hg =>
    Option.isSome_iff_exists.mp (isSome_ofHexDigits?.mpr hg)
  refine ⟨fun text => ⟨?_, ?_⟩, ?_, fun _ => read_of_not_spells, readBytes?_eq,
    fun c => ⟨read_hex c, Value.color?_ofColor c⟩, Palette.ofValue?_toValue⟩
  · -- A text that is not spelled would be refused.
    rintro ⟨c, hc⟩
    by_contra hnot
    rw [read_of_not_spells hnot] at hc
    cases hc
  · rintro ⟨g, hg⟩
    obtain ⟨c, hc⟩ := hsome hg.1
    exact ⟨c, read_of_spells hg hc⟩
  · intro text c g hread hg
    obtain ⟨d, hd⟩ := hsome hg.1
    rw [read_of_spells hg hd] at hread
    cases hread
    rw [hex, hexDigits_of_ofHexDigits? hd]

/-- Two signs, capitals and white space around are read past; three letters of two bytes each are
six bytes, and no colour. -/
theorem Rgb.read_spelling_of_signs :
    (∃ c, read " ##4A90d9\n" = .ok c ∧ c.hex = "#4a90d9") ∧
      readBytes? "\u00e4\u00f6\u00fc" = some (.error (.invalidHex "\u00e4\u00f6\u00fc")) := by
  obtain ⟨hiff, hlower, hrefused, hbytes, -⟩ := Rgb.read_spelling (α := Float)
  have hspells : Spells " ##4A90d9\n".toList "4A90d9".toList :=
    ⟨⟨rfl, List.all_eq_true.mp rfl⟩, [' '], ['#', '#'], ['\n'], rfl, List.all_eq_true.mp rfl,
      by simp, List.all_eq_true.mp rfl⟩
  -- Three letters of two bytes make six bytes, but only three characters.
  have hnot : ¬ ∃ g, Spells "\u00e4\u00f6\u00fc".toList g := by
    rintro ⟨g, hg⟩
    obtain ⟨hgroup, rfl⟩ := spells_iff.mp hg
    exact absurd hgroup.length (by decide)
  obtain ⟨c, hc⟩ := (hiff _).mpr ⟨_, hspells⟩
  refine ⟨⟨c, hc, hlower _ c _ hc hspells⟩, ?_⟩
  rw [hbytes, hrefused _ hnot]

end TurtleCurves
