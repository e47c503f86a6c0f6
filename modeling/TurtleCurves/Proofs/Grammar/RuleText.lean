import TurtleCurves.Proofs.SortedMap
import TurtleCurves.Proofs.Text.Blank
import TurtleCurves.Proofs.Text.Joined

namespace TurtleCurves.Rules

/-!
# Rules read back from their text

A rule map can hold any letters and any expansions, and a line cannot: white space around a side is
dropped, an empty side is refused, and `=` and line feeds have a meaning of their own.

* `Writable` — the rules that a line can hold;
* `readLine?_renderLine`, `writable_of_readLine?` — what a line says is writable, and what is
  writable is read back from its line;
* `Canonical` — the rule maps with writable rules only, which are the ones that texts say;
* `parse_render_iff` — a rule map is read back from its own text exactly when it is canonical;
* `parse_render_parse` — texts and rule maps together.
-/

/-! ### One line -/

/-- The sides of a line are what is around its first `=`. -/
theorem sides?_eq_some_iff {line left right : List Char} :
    sides? line = some (left, right) ↔ line = left ++ '=' :: right ∧ '=' ∉ left := by
  constructor
  · intro h
    -- The cut is at the first `=`: what comes before it holds none, and what is left starts with
    -- it.
    have hwhole := List.takeWhile_append_dropWhile (p := (· != '=')) (l := line)
    have hfirst := List.head?_dropWhile_not (· != '=') line
    have hleft : '=' ∉ line.takeWhile (· != '=') := by
      intro hmem
      have hpass := List.mem_takeWhile_imp hmem
      simp at hpass
    unfold sides? at h
    split at h
    · cases h
    · next c rest hdrop =>
      cases h
      rw [hdrop] at hwhole hfirst
      have hc : c = '=' := by simpa using hfirst
      rw [hc] at hwhole
      exact ⟨hwhole.symm, hleft⟩
  · rintro ⟨rfl, hleft⟩
    have hkept : ∀ c ∈ left, (c != '=') = true :=
      fun c hc => bne_iff_ne.mpr fun heq => hleft (heq ▸ hc)
    rw [sides?, List.dropWhile_append_of_pos hkept, List.takeWhile_append_of_pos hkept]
    simp

/-- A line says a rule when its trimmed sides are a letter and an expansion. -/
theorem readLine?_eq_some_iff {line : List Char} {rule : Char × Word} :
    readLine? line = some rule ↔
      ∃ left right, sides? line = some (left, right) ∧ Text.trim left = [rule.1] ∧
        Text.trim right = rule.2 ∧ rule.2 ≠ [] := by
  unfold readLine?
  cases hsides : sides? line with
  | none => simp
  | some sides =>
    obtain ⟨left, right⟩ := sides
    dsimp only
    split
    · next c w hleft hright => grind
    · next hother => grind

/-- The rule can stand on a line. -/
structure Writable (rule : Char × Word) : Prop where
  letter_ne : rule.1 ≠ '='
  letter_full : Text.isBlank rule.1 = false
  expansion_ne : rule.2 ≠ []
  expansion_line : '\n' ∉ rule.2
  expansion_trimmed : Text.Trimmed rule.2

instance (rule : Char × Word) : Decidable (Writable rule) :=
  decidable_of_iff
    (rule.1 ≠ '=' ∧ Text.isBlank rule.1 = false ∧ rule.2 ≠ [] ∧ '\n' ∉ rule.2 ∧
      Text.Trimmed rule.2)
    ⟨fun ⟨h₁, h₂, h₃, h₄, h₅⟩ => ⟨h₁, h₂, h₃, h₄, h₅⟩,
      fun h => ⟨h.1, h.2, h.3, h.4, h.5⟩⟩

/-- **What is writable is read back.** -/
theorem readLine?_renderLine {rule : Char × Word} (h : Writable rule) :
    readLine? (renderLine rule) = some rule := by
  have hsides : sides? (renderLine rule) = some ([rule.1], rule.2) :=
    sides?_eq_some_iff.mpr ⟨rfl, fun hmem => h.letter_ne (List.mem_singleton.mp hmem).symm⟩
  exact readLine?_eq_some_iff.mpr ⟨[rule.1], rule.2, hsides,
    Text.trim_of_trimmed (Text.trimmed_singleton h.letter_full),
    Text.trim_of_trimmed h.expansion_trimmed, h.expansion_ne⟩

/-- **What a line says is writable.** -/
theorem writable_of_readLine? {line : List Char} (hfeed : '\n' ∉ line) {rule : Char × Word}
    (h : readLine? line = some rule) : Writable rule := by
  obtain ⟨left, right, hsides, hletter, hexpansion, hne⟩ := readLine?_eq_some_iff.mp h
  obtain ⟨rfl, hsign⟩ := sides?_eq_some_iff.mp hsides
  have hmem : rule.1 ∈ left := Text.mem_of_mem_trim (by rw [hletter]; exact List.mem_cons_self)
  refine ⟨fun heq => hsign (heq ▸ hmem), ?_, hne, fun hline => hfeed ?_, ?_⟩
  · have htrimmed := Text.trimmed_trim left
    rw [hletter] at htrimmed
    exact htrimmed.head (List.cons_ne_nil _ _)
  · rw [← hexpansion] at hline
    exact List.mem_append_right _ (List.mem_cons_of_mem '=' (Text.mem_of_mem_trim hline))
  · rw [← hexpansion]
    exact Text.trimmed_trim right

/-! ### Whole texts -/

/-- Every rule can stand on a line. -/
def Canonical (rules : Rules) : Prop := ∀ rule ∈ rules.entries, Writable rule

instance (rules : Rules) : Decidable rules.Canonical :=
  inferInstanceAs (Decidable (∀ rule ∈ rules.entries, Writable rule))

/-- **Rules as lines.** The lines of a rule text are its rules, one each, as long as no rule holds a
line feed and no expansion ends in a carriage return. -/
theorem lines_render {rules : Rules} (hfeed : ∀ rule ∈ rules.entries, '\n' ∉ rule.1 :: rule.2)
    (hreturn : ∀ rule ∈ rules.entries, rule.2.getLast? ≠ some '\r') :
    Text.lines rules.render = rules.renderLines := by
  refine Text.lines_unlines ?_ ?_ ?_ <;> intro l hl <;>
    obtain ⟨rule, hrule, rfl⟩ := List.mem_map.mp hl
  · have hline := hfeed rule hrule
    simp only [renderLine, List.mem_cons, not_or] at hline ⊢
    exact ⟨hline.1, by decide, hline.2⟩
  · -- The line of an empty expansion ends in the sign.
    have hlast : (renderLine rule).getLast? = rule.2.getLast?.or (some '=') := by
      show ([rule.1, '='] ++ rule.2).getLast? = _
      rw [List.getLast?_append]
      rfl
    intro hend
    rw [hlast] at hend
    rcases Option.or_eq_some_iff.mp hend with hexpansion | ⟨-, hsign⟩
    · exact hreturn rule hrule hexpansion
    · exact absurd hsign (by decide)
  · exact List.cons_ne_nil _ _

theorem Canonical.lines_render {rules : Rules} (h : rules.Canonical) :
    Text.lines rules.render = rules.renderLines := by
  -- Line breaks are white space, which a writable rule has only inside its expansion.
  refine Rules.lines_render (fun rule hrule => ?_) fun rule hrule hlast => ?_
  · have hwritable := h rule hrule
    rw [List.mem_cons, not_or]
    refine ⟨fun heq => ?_, hwritable.expansion_line⟩
    have hblank := hwritable.letter_full
    rw [← heq] at hblank
    exact absurd hblank (by decide)
  · have hwritable := h rule hrule
    have hblank := hwritable.expansion_trimmed.last hwritable.expansion_ne
    rw [List.getLast?_eq_some_getLast hwritable.expansion_ne] at hlast
    rw [Option.some.inj hlast] at hblank
    exact absurd hblank (by decide)

/-- Every text says a canonical rule map. -/
theorem canonical_parse (text : List Char) : (parse text).Canonical := by
  intro rule hrule
  obtain ⟨line, hline, hread⟩ :=
    List.mem_filterMap.mp (SortedMap.mem_of_mem_entries_ofList hrule)
  exact writable_of_readLine? (Text.feed_notMem_of_mem_lines hline) hread

/-- White space is dropped at the ends of a side only, and the last line of a letter counts. -/
example : parse "F = F=G \r\nFF=X\n= Y\n F=\u3000X\t=\rY\u2003\r\nG=\n".toList =
    SortedMap.ofList [('F', "X\t=\rY".toList)] := by
  decide +kernel

/-- **Round trip.** A rule map is read back from its own text exactly when every rule can stand on
a line. -/
theorem parse_render_iff {rules : Rules} : parse rules.render = rules ↔ rules.Canonical := by
  constructor
  · intro h
    rw [← h]
    exact canonical_parse rules.render
  · intro h
    have hread : rules.renderLines.filterMap readLine? = rules.entries := by
      rw [renderLines, List.filterMap_map]
      calc rules.entries.filterMap (readLine? ∘ renderLine)
          = rules.entries.filterMap some :=
            List.filterMap_congr fun rule hrule => readLine?_renderLine (h rule hrule)
        _ = rules.entries := List.filterMap_some
    rw [parse, h.lines_render, hread, SortedMap.ofList_entries]

/-- **Rule texts.** Whatever a text says is canonical, the canonical rule maps are exactly the ones
that are read back from their own text, and so a text that was written from what another text says
says the same. -/
theorem parse_render_parse :
    (∀ text, (parse text).Canonical) ∧
      (∀ rules : Rules, parse rules.render = rules ↔ rules.Canonical) ∧
      ∀ text, parse (parse text).render = parse text := by
  refine ⟨canonical_parse, fun rules => parse_render_iff, fun text => ?_⟩
  exact parse_render_iff.mpr (canonical_parse text)

end TurtleCurves.Rules
