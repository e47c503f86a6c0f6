import TurtleCurves.Explorer.Report
import TurtleCurves.Proofs.Color.Text
import TurtleCurves.Proofs.Decimal.Shortest
import TurtleCurves.Proofs.Explorer.Coherence
import TurtleCurves.Proofs.Grammar.RuleText
import TurtleCurves.Scalar.Binary64

namespace TurtleCurves

/-!
# Blocks of the settings

The settings of a picture are listed in blocks of lines: its grammar, its colours, its state.

* `Scalar.Legible α` — scalars that their written form tells apart, without line feeds or commas;
* `Text.Unbroken`, `Grammar.Unbroken` — words and letters without line breaks;
* `Explorer.colors_of_lines`, `grammar_of_lines`, `state_of_lines` — what each block determines,
  at the front of whatever lines follow;
* `feed_notMem_colorLines`, `feed_notMem_grammarLines`, `feed_notMem_stateLines` — no line of a
  block holds a line feed.
-/

/-! ### Written scalars -/

/-- Scalars that are told apart by their written form, which has no line feed and no comma. -/
class Scalar.Legible (α : Type) [Scalar α] : Prop where
  text_injective : Function.Injective (Scalar.text : α → String)
  feed_notMem (x : α) : '\n' ∉ (Scalar.text x).toList
  comma_notMem (x : α) : ',' ∉ (Scalar.text x).toList

/-- **Doubles are legible.** -/
instance Binary64.instLegible : Scalar.Legible Float where
  text_injective := Decimal.shortest_injective
  feed_notMem := by
    intro x h
    exact absurd (Decimal.shortest_plain h) (by decide)
  comma_notMem := by
    intro x h
    exact absurd (Decimal.shortest_plain h) (by decide)

/-! ### Words without line breaks -/

/-- No line feed and no carriage return. -/
def Text.Unbroken (cs : List Char) : Prop := '\n' ∉ cs ∧ '\r' ∉ cs

instance (cs : List Char) : Decidable (Text.Unbroken cs) := inferInstanceAs (Decidable (_ ∧ _))

/-- The seed, the letters with a rule and their expansions have no line breaks. -/
def Grammar.Unbroken {α : Type} (g : Grammar α) : Prop :=
  Text.Unbroken g.seed ∧ ∀ rule ∈ g.rules.entries, Text.Unbroken (rule.1 :: rule.2)

instance {α : Type} (g : Grammar α) : Decidable g.Unbroken := inferInstanceAs (Decidable (_ ∧ _))

/-- The line of an unbroken rule is unbroken. -/
theorem Rules.unbroken_renderLine {rule : Char × Word} (h : Text.Unbroken (rule.1 :: rule.2)) :
    Text.Unbroken (renderLine rule) := by
  obtain ⟨c, w⟩ := rule
  simp only [Text.Unbroken, renderLine, List.mem_cons, not_or] at h ⊢
  exact ⟨⟨h.1.1, by decide, h.1.2⟩, h.2.1, by decide, h.2.2⟩

/-- The lines of an unbroken rule text are its rules, one each. -/
theorem Rules.lines_render_of_unbroken {rules : Rules}
    (h : ∀ rule ∈ rules.entries, Text.Unbroken (rule.1 :: rule.2)) :
    Text.lines rules.render = rules.renderLines :=
  lines_render (fun rule hrule => (h rule hrule).1) fun rule hrule hlast =>
    (h rule hrule).2 (List.mem_cons_of_mem _ (List.mem_of_getLast? hlast))

/-- A rule is read off its line: the letter stands first, and the expansion behind the sign. -/
theorem Rules.renderLine_injective : Function.Injective renderLine := by
  intro rule rule' h
  obtain ⟨hletter, htail⟩ := List.cons.inj h
  exact Prod.ext hletter (List.cons.inj htail).2

/-- So are the rules of a grammar off their lines. -/
theorem Rules.renderLines_injective : Function.Injective renderLines := by
  intro rules rules' h
  exact SortedMap.ext (List.map_injective_iff.mpr renderLine_injective h)

namespace Explorer

/-! ### Lines of a label and a value -/

/-- Under a label the value is read off the line. -/
theorem entry_injective (label : String) : Function.Injective (entry label) := by
  intro value value' h
  exact String.toList_injective (List.append_cancel_left h)

/-- A line has no line feed if its label and its value have none. -/
theorem feed_notMem_entry {label value : String} (hlabel : '\n' ∉ label.toList)
    (hvalue : '\n' ∉ value.toList) : '\n' ∉ entry label value := by
  intro h
  exact (List.mem_append.mp h).elim hlabel hvalue

/-- Nor has a text of two parts without one. -/
theorem feed_notMem_append {s t : String} (hs : '\n' ∉ s.toList) (ht : '\n' ∉ t.toList) :
    '\n' ∉ (s ++ t).toList := by
  rw [String.toList_append]
  exact fun h => (List.mem_append.mp h).elim hs ht

theorem toList_toString (n : Nat) : (toString n).toList = Decimal.digits n := Nat.toList_repr

/-- Digits are no line feeds. -/
theorem feed_notMem_toString (n : Nat) : '\n' ∉ (toString n).toList := by
  rw [toList_toString]
  exact Decimal.notMem_digits rfl n

/-- Nor are the commas between groups of them. -/
theorem feed_notMem_grouped (n : Nat) : '\n' ∉ (Decimal.grouped n).toList := by
  intro h
  exact absurd (Decimal.grouped_plain h) (by decide)

/-- Nor is anything in the text of a colour. -/
theorem feed_notMem_hex (c : Rgb) : '\n' ∉ c.hex.toList := by
  intro h
  exact absurd (Rgb.isAlphanum_of_mem_hex h) (by decide)

/-- A list of texts without line feeds is joined without one. -/
theorem feed_notMem_joined {strings : List String} (h : ∀ s ∈ strings, '\n' ∉ s.toList) :
    '\n' ∉ (String.intercalate ", " strings).toList := by
  rw [String.toList_intercalate]
  refine Text.notMem_intercalate (by decide) ?_
  intro cs hcs
  obtain ⟨s, hs, rfl⟩ := List.mem_map.mp hcs
  exact h s hs

/-! ### The colour block -/

section Colors

variable {α : Type}

/-- A letter, the sign and the text of its colour. -/
theorem toList_assignment (palette : Palette) (a : Char × Nat) :
    (assignment palette a).toList = a.1 :: '=' :: (palette.get a.2).hex.toList := by
  rw [assignment, String.toList_append, String.toList_append, String.toList_singleton]
  rfl

/-- No line of the colour block holds a line feed, if no letter is one. -/
theorem feed_notMem_colorLines {e : Explorer α} (h : Text.Unbroken e.symbols.keys) :
    ∀ l ∈ e.colorLines, '\n' ∉ l := by
  have hpalette : ∀ s ∈ e.palette.colors.map Rgb.hex, '\n' ∉ s.toList := by
    intro s hs
    obtain ⟨c, _, rfl⟩ := List.mem_map.mp hs
    exact feed_notMem_hex c
  have hassigned : ∀ s ∈ e.symbols.entries.map (assignment e.palette), '\n' ∉ s.toList := by
    intro s hs
    obtain ⟨a, ha, rfl⟩ := List.mem_map.mp hs
    rw [toList_assignment, List.mem_cons, List.mem_cons]
    rintro (hletter | hsign | hhex)
    · exact h.1 (hletter ▸ List.mem_map_of_mem ha)
    · exact absurd hsign (by decide)
    · exact feed_notMem_hex _ hhex
  have hmode : '\n' ∉ e.colorMode.name.toList := by cases e.colorMode <;> decide
  have haxis : '\n' ∉ e.axis.name.toList := by cases e.axis <;> decide
  -- Four lines are always there, two only in some modes.
  simp only [colorLines, List.forall_mem_append, List.forall_mem_cons]
  refine ⟨⟨⟨?_, ?_, ?_, ?_, by simp⟩, ?_⟩, ?_⟩
  · exact feed_notMem_entry (by decide) (by decide)
  · exact feed_notMem_entry (by decide) hmode
  · exact feed_notMem_entry (by decide) (feed_notMem_joined hpalette)
  · exact feed_notMem_entry (by decide) (feed_notMem_hex _)
  · split
    · exact List.forall_mem_singleton.mpr (feed_notMem_entry (by decide) haxis)
    · simp
  · split
    · exact List.forall_mem_singleton.mpr
        (feed_notMem_entry (by decide) (feed_notMem_joined hassigned))
    · simp

/-- A letter and its colour are read off their text. -/
theorem assignment_inj {palette : Palette} {a a' : Char × Nat}
    (h : assignment palette a = assignment palette a') :
    a.1 = a'.1 ∧ palette.get a.2 = palette.get a'.2 := by
  have hlist := congrArg String.toList h
  rw [toList_assignment, toList_assignment] at hlist
  obtain ⟨hletter, htail⟩ := List.cons.inj hlist
  exact ⟨hletter, Rgb.hex_injective (String.toList_injective (List.cons.inj htail).2)⟩

/-- Equal listings give every letter the same colour, whichever stops they name. -/
theorem color_of_assignments {palette : Palette} {es es' : List (Char × Nat)}
    (h : es.map (assignment palette) = es'.map (assignment palette)) (c : Char) :
    (SortedMap.lookup c es).map palette.get = (SortedMap.lookup c es').map palette.get := by
  induction es generalizing es' with
  | nil =>
    cases es' with
    | nil => rfl
    | cons a' rest' => exact absurd h.symm (List.cons_ne_nil _ _)
  | cons a rest ih =>
    cases es' with
    | nil => exact absurd h (List.cons_ne_nil _ _)
    | cons a' rest' =>
      obtain ⟨hhead, htail⟩ := List.cons.inj h
      obtain ⟨hletter, hcolor⟩ := assignment_inj hhead
      obtain ⟨k, i⟩ := a
      obtain ⟨k', i'⟩ := a'
      obtain rfl : k = k' := hletter
      -- The first entry for a letter decides, and both listings have their letters at the same
      -- places.
      by_cases hc : Ranked.rank c = Ranked.rank k
      · rw [SortedMap.lookup, SortedMap.lookup, if_pos hc, if_pos hc]
        exact congrArg some hcolor
      · rw [SortedMap.lookup, SortedMap.lookup, if_neg hc, if_neg hc]
        exact ih htail

/-- A palette is read off its list of colours. -/
theorem palette_of_text {palette palette' : Palette}
    (h : String.intercalate ", " (palette.colors.map Rgb.hex) =
      String.intercalate ", " (palette'.colors.map Rgb.hex)) : palette = palette' := by
  have hlist := congrArg String.toList h
  rw [String.toList_intercalate, String.toList_intercalate, List.map_map, List.map_map] at hlist
  -- Every colour is written in seven characters, which tells the entries apart.
  have hwidth : ∀ p : Palette, ∀ cs ∈ p.colors.map (String.toList ∘ Rgb.hex), cs.length = 7 := by
    intro p cs hcs
    obtain ⟨c, _, rfl⟩ := List.mem_map.mp hcs
    exact c.length_toList_hex
  have hcolors := Text.intercalate_injective (by decide) (hwidth palette) (hwidth palette') hlist
  refine Palette.ext (List.map_injective_iff.mpr ?_ hcolors)
  intro c c' htext
  exact Rgb.hex_injective (String.toList_injective htext)

/-- A listing of letters is read off its text: each entry takes nine characters, so that a comma
or a blank among the letters does no harm. -/
theorem assignments_of_text {palette : Palette} {es es' : List (Char × Nat)}
    (h : String.intercalate ", " (es.map (assignment palette)) =
      String.intercalate ", " (es'.map (assignment palette))) :
    es.map (assignment palette) = es'.map (assignment palette) := by
  have hlist := congrArg String.toList h
  rw [String.toList_intercalate, String.toList_intercalate] at hlist
  -- Every assignment has nine characters, so that a list of them can be cut apart again.
  have hwidth : ∀ es : List (Char × Nat), ∀ cs ∈ (es.map (assignment palette)).map String.toList,
      cs.length = 9 := by
    intro es cs hcs
    obtain ⟨s, hs, rfl⟩ := List.mem_map.mp hcs
    obtain ⟨a, _, rfl⟩ := List.mem_map.mp hs
    rw [toList_assignment, List.length_cons, List.length_cons, Rgb.length_toList_hex]
  refine List.map_injective_iff.mpr ?_
    (Text.intercalate_injective (by decide) (hwidth es) (hwidth es') hlist)
  intro s s' htext
  exact String.toList_injective htext

variable [Scalar α]

/-- **The colour block** determines the colour of every stroke and the background. -/
theorem colors_of_lines {e e' : Explorer α} {rest rest' : List (List Char)}
    (h : e.colorLines ++ rest = e'.colorLines ++ rest') :
    Frame.SameColors e.colorSource e'.colorSource ∧ e.background = e'.background ∧
      rest = rest' := by
  simp only [colorLines, List.append_assoc, List.cons_append, List.nil_append, List.cons.injEq,
    true_and] at h
  obtain ⟨hmode, hpalette, hbackground, htail⟩ := h
  have hmode : e.colorMode = e'.colorMode := ColorMode.name_injective (entry_injective _ hmode)
  have hpalette : e.palette = e'.palette := palette_of_text (entry_injective _ hpalette)
  have hbackground : e.background = e'.background :=
    Rgb.hex_injective (entry_injective _ hbackground)
  -- Each optional line is there in both listings or in neither, the mode being the same.
  rw [hmode, hpalette] at htail
  obtain ⟨haxis, htail⟩ := List.append_inj htail (by split <;> rfl)
  obtain ⟨hsymbols, hrest⟩ := List.append_inj htail (by split <;> rfl)
  refine ⟨⟨hmode, congrArg (·.get 0) hpalette, ?_⟩, hbackground, hrest⟩
  intro b k
  -- The axis and the letters are listed in the one mode in which a stroke asks for them.
  cases hm : e'.colorMode with
  | flat => simp only [ColorSource.resolve, colorSource, hmode, hm, hpalette]
  | paletteGradient => simp only [ColorSource.resolve, colorSource, hmode, hm, hpalette]
  | depth => simp only [ColorSource.resolve, colorSource, hmode, hm, hpalette]
  | position =>
    rw [if_pos hm, if_pos hm] at haxis
    have haxis : e.axis = e'.axis :=
      PositionAxis.name_injective (entry_injective _ (List.singleton_inj.mp haxis))
    simp only [ColorSource.resolve, colorSource, hmode, hm, hpalette, haxis]
  | perSymbol =>
    rw [if_pos hm, if_pos hm] at hsymbols
    have hlisted := assignments_of_text (entry_injective _ (List.singleton_inj.mp hsymbols))
    have hcolor : (e.symbols.get? k.symbol).map e'.palette.get =
        (e'.symbols.get? k.symbol).map e'.palette.get := color_of_assignments hlisted k.symbol
    simp only [ColorSource.resolve, colorSource, hmode, hm, hpalette]
    rw [← Option.getD_map e'.palette.get, ← Option.getD_map e'.palette.get, hcolor]

end Colors

/-! ### The grammar block -/

variable {α : Type} [Scalar α] [Scalar.Legible α]

/-- No line of the grammar block holds a line feed. -/
theorem feed_notMem_grammarLines {g : Grammar α} (h : g.Unbroken) :
    ∀ l ∈ grammarLines g, '\n' ∉ l := by
  have hseed : '\n' ∉ "Axiom:            ".toList ++ g.seed := by
    intro hmem
    exact (List.mem_append.mp hmem).elim (by decide) h.1.1
  -- The lines of the rules are read back from their text, so there are as many as rules.
  have hrules : ∀ l ∈ (Text.lines g.rules.render).map (fun line => ' ' :: ' ' :: line),
      '\n' ∉ l := by
    rw [Rules.lines_render_of_unbroken h.2]
    intro l hl hmem
    obtain ⟨line, hline, rfl⟩ := List.mem_map.mp hl
    obtain ⟨rule, hrule, rfl⟩ := List.mem_map.mp hline
    simp only [List.mem_cons] at hmem
    rcases hmem with hblank | hblank | hmem
    · exact absurd hblank (by decide)
    · exact absurd hblank (by decide)
    · exact (Rules.unbroken_renderLine (h.2 rule hrule)).1 hmem
  have hfeed := Scalar.Legible.feed_notMem (α := α)
  have hdegrees : ∀ x : α, '\n' ∉ (Scalar.text x ++ "°").toList := fun x =>
    feed_notMem_append (hfeed x) (by decide)
  have horigin : '\n' ∉
      ("x=" ++ Scalar.text g.origin.x ++ ", y=" ++ Scalar.text g.origin.y).toList :=
    feed_notMem_append (feed_notMem_append (feed_notMem_append (by decide) (hfeed _)) (by decide))
      (hfeed _)
  simp only [grammarLines, List.forall_mem_append, List.forall_mem_cons]
  refine ⟨⟨⟨?_, hseed, ?_, by simp⟩, hrules⟩, ?_, ?_, ?_, ?_, by simp⟩
  · exact feed_notMem_entry (by decide) (by decide)
  · exact feed_notMem_entry (by decide) (by decide)
  · exact feed_notMem_entry (by decide) (hdegrees _)
  · exact feed_notMem_entry (by decide) (hfeed _)
  · exact feed_notMem_entry (by decide) (hdegrees _)
  · exact feed_notMem_entry (by decide) horigin

/-- A place is read off its two coordinates: the comma stands between them. -/
theorem point_of_text {p p' : Point α}
    (h : "x=" ++ Scalar.text p.x ++ ", y=" ++ Scalar.text p.y =
      "x=" ++ Scalar.text p'.x ++ ", y=" ++ Scalar.text p'.y) : p = p' := by
  have hlist := congrArg String.toList h
  simp only [String.toList_append, List.append_assoc] at hlist
  -- No scalar holds a comma, so that the first one ends the first coordinate.
  have hpair : (Scalar.text p.x).toList ++ ',' :: (" y=".toList ++ (Scalar.text p.y).toList) =
      (Scalar.text p'.x).toList ++ ',' :: (" y=".toList ++ (Scalar.text p'.y).toList) :=
    List.append_cancel_left hlist
  have hcomma : ∀ x : α, ∀ c ∈ (Scalar.text x).toList, c ≠ ',' := by
    intro x c hc heq
    exact Scalar.Legible.comma_notMem x (heq ▸ hc)
  obtain ⟨hx, -, hy⟩ := Text.split_unique (hcomma p.x) (hcomma p'.x) (not_not_intro rfl)
    (not_not_intro rfl) hpair
  cases p
  cases p'
  rw [Point.mk.injEq]
  exact ⟨Scalar.Legible.text_injective (String.toList_injective hx),
    Scalar.Legible.text_injective (String.toList_injective (List.append_cancel_left hy))⟩

/-- **The grammar block** determines the grammar. -/
theorem grammar_of_lines {g g' : Grammar α} (hg : g.Unbroken) (hg' : g'.Unbroken)
    {rest rest' : List (List Char)} (h : grammarLines g ++ rest = grammarLines g' ++ rest') :
    g = g' ∧ rest = rest' := by
  rw [grammarLines, grammarLines, Rules.lines_render_of_unbroken hg.2,
    Rules.lines_render_of_unbroken hg'.2] at h
  simp only [List.append_assoc, List.cons_append, List.nil_append, List.cons.injEq, true_and] at h
  obtain ⟨hseed, htail⟩ := h
  -- The rules are indented, and the line of the angle after them is not: their number is not told.
  have hindented : ∀ rules : Rules, ∀ l ∈ rules.renderLines.map (fun line => ' ' :: ' ' :: line),
      l.head? = some ' ' := by
    intro rules l hl
    obtain ⟨line, _, rfl⟩ := List.mem_map.mp hl
    rfl
  have hangle : ∀ value, ¬ (entry "Angle:            " value).head? = some ' ' := by
    intro value hblank
    exact absurd (Option.some.inj hblank) (by decide)
  obtain ⟨hrules, hturn, hmeasures⟩ := Text.split_unique (hindented _) (hindented _)
    (hangle _) (hangle _) htail
  have hsame : g.rules = g'.rules := by
    refine Rules.renderLines_injective (List.map_injective_iff.mpr ?_ hrules)
    intro line line' hline
    exact (List.cons.inj (List.cons.inj hline).2).2
  simp only [List.cons.injEq] at hmeasures
  obtain ⟨hlength, hstart, horigin, hrest⟩ := hmeasures
  have htext := Scalar.Legible.text_injective (α := α)
  cases g
  cases g'
  rw [Grammar.mk.injEq]
  refine ⟨⟨List.append_cancel_left hseed, hsame, ?_, ?_, ?_, ?_⟩, hrest⟩
  · exact htext ((String.append_left_inj "°").mp (entry_injective _ hturn))
  · exact htext (entry_injective _ hlength)
  · exact htext ((String.append_left_inj "°").mp (entry_injective _ hstart))
  · exact point_of_text (entry_injective _ horigin)

/-! ### The state block -/

/-- No line of the state block holds a line feed. -/
theorem feed_notMem_stateLines (e : Explorer α) (d : Derivation α) :
    ∀ l ∈ e.stateLines d, '\n' ∉ l := by
  -- Each line is a label with plain text or a number; none of them holds a line feed.
  simp only [stateLines, List.forall_mem_cons]
  refine ⟨?_, ?_, ?_, ?_, ?_, ?_, ?_, ?_, ?_, ?_, by simp⟩
  · exact feed_notMem_entry (by decide) (by decide)
  · exact feed_notMem_entry (by decide)
      (feed_notMem_append (Scalar.Legible.feed_notMem _) (by decide))
  · exact List.not_mem_nil
  · exact feed_notMem_entry (by decide) (by decide)
  · exact feed_notMem_entry (by decide) (feed_notMem_toString _)
  · exact feed_notMem_entry (by decide)
      (feed_notMem_append (feed_notMem_grouped _) (by decide))
  · exact List.not_mem_nil
  · exact feed_notMem_entry (by decide) (by decide)
  · exact feed_notMem_entry (by decide)
      (feed_notMem_append (feed_notMem_toString _) (by decide))
  · exact feed_notMem_entry (by decide) (feed_notMem_toString _)

/-- **The state block** determines the width of the strokes and the iteration. -/
theorem state_of_lines {e e' : Explorer α} {d d' : Derivation α}
    (h : e.stateLines d = e'.stateLines d') :
    e.strokeWidth = e'.strokeWidth ∧ d.iteration = d'.iteration := by
  simp only [stateLines, List.cons.injEq, true_and, and_true] at h
  obtain ⟨hwidth, hiteration, -⟩ := h
  have hcount := congrArg String.toList (entry_injective _ hiteration)
  rw [toList_toString, toList_toString] at hcount
  have hpx := (String.append_left_inj "px").mp (entry_injective _ hwidth)
  exact ⟨Scalar.Legible.text_injective hpx, Decimal.digits_injective hcount⟩

end Explorer

end TurtleCurves
