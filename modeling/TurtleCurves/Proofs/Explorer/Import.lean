import TurtleCurves.Proofs.Explorer.Failures

namespace TurtleCurves

/-!
# Colours from a link

Which colours a link gives to a palette, for every link and every palette: those of the first run of
groups in it, as long as a run can be, in the leading stops. Nothing can go wrong in between.

* `PaletteLink.others_isPrefix` — no other groups reach further from the place where a run begins;
* `Palette.Takes` — the leading stops have the colours of groups, the others are as they were;
* `Explorer.importLink_run` — all of it.
-/

namespace PaletteLink

/-! ### The longest run -/

/-- Groups that follow one another behind hyphens are a part of all that do. -/
theorem following_isPrefix {groups others : List (List Char)} {after rest : List Char}
    (hgroups : ∀ g ∈ groups, IsGroup g) (hothers : ∀ g ∈ others, IsGroup g)
    (hwhole : ∀ g rest, after = '-' :: (g ++ rest) → ¬ IsGroup g)
    (h : (groups.map (['-'] ++ ·)).flatten ++ after = (others.map (['-'] ++ ·)).flatten ++ rest) :
    others <+: groups := by
  induction others generalizing groups with
  | nil => exact List.nil_prefix
  | cons o others ih =>
    obtain ⟨ho, hlater⟩ := List.forall_mem_cons.mp hothers
    rw [List.map_cons, List.flatten_cons, List.append_assoc, List.append_assoc] at h
    -- If the run had ended here, `o` would be a group right after it, which `hwhole` excludes.
    cases groups with
    | nil => exact absurd ho (hwhole o _ h)
    | cons g groups =>
      obtain ⟨hg, hrest⟩ := List.forall_mem_cons.mp hgroups
      rw [List.map_cons, List.flatten_cons, List.append_assoc, List.append_assoc] at h
      -- Groups all have one length, so two texts that start with a group agree on it.
      obtain ⟨rfl, htail⟩ :=
        List.append_inj (List.append_cancel_left h) (hg.length.trans ho.length.symm)
      exact List.cons_prefix_cons.mpr ⟨rfl, ih hrest hlater htail⟩

/-- **A run is as long as can be.** Whatever groups are joined from its place on, they are the first
of its groups. -/
theorem IsRun.others_isPrefix {before after : List Char} {groups : List (List Char)}
    (h : IsRun before groups after) {others : List (List Char)} {rest : List Char}
    (hothers : ∀ g ∈ others, IsGroup g)
    (hplace : List.intercalate ['-'] groups ++ after = List.intercalate ['-'] others ++ rest) :
    others <+: groups := by
  cases others with
  | nil => exact List.nil_prefix
  | cons o others =>
    obtain ⟨g, groups, rfl⟩ := List.exists_cons_of_ne_nil h.nonempty
    obtain ⟨ho, hlater⟩ := List.forall_mem_cons.mp hothers
    obtain ⟨hg, hrest⟩ := List.forall_mem_cons.mp h.group
    rw [Text.intercalate_cons, Text.intercalate_cons, List.append_assoc, List.append_assoc] at hplace
    obtain ⟨rfl, htail⟩ := List.append_inj hplace (hg.length.trans ho.length.symm)
    exact List.cons_prefix_cons.mpr ⟨rfl, following_isPrefix hrest hlater h.whole htail⟩

end PaletteLink

namespace Palette

/-! ### The stops that are taken -/

/-- The leading stops of `q` have the colours of the groups, as far as both reach, and the other
stops are those of `p`. -/
structure Takes (p : Palette) (groups : List (List Char)) (q : Palette) : Prop where
  size : q.size = p.size
  taken : ∀ i < min groups.length p.size, ∃ g c, groups[i]? = some g ∧
    Rgb.read (String.ofList g) = .ok c ∧ q.colors[i]? = some c
  kept : ∀ i, min groups.length p.size ≤ i → q.colors[i]? = p.colors[i]?

/-- What comes of overwriting stops one after the other with groups. -/
theorem takes_of_takeOver {p q : Palette} {groups : List (List Char)} {count : Nat}
    (hgroups : ∀ g ∈ groups, PaletteLink.IsGroup g)
    (htaken : takeOver p.colors groups = (.ok count, q.colors)) : p.Takes groups q := by
  obtain ⟨colors, hcolors⟩ := exists_colors_of_groups hgroups
  have hlength : groups.length = colors.length := by
    simpa using congrArg List.length hcolors
  have hout : colors.take p.size ++ p.colors.drop colors.length = q.colors := by
    rw [takeOver_of_groups hgroups hcolors] at htaken
    exact congrArg Prod.snd htaken
  have hsize : q.colors.length = p.colors.length := by
    rw [← length_takeOver p.colors groups, htaken]
  refine ⟨hsize, fun i hi => ?_, fun i hi => ?_⟩
  · obtain ⟨hig, hip⟩ := Nat.lt_min.mp hi
    have hic : i < colors.length := hlength ▸ hig
    have hread : Rgb.ofHexDigits? groups[i] = some colors[i] := by
      have hplace := congrArg (·[i]?) hcolors
      simpa [hig, hic] using hplace
    refine ⟨groups[i], colors[i], List.getElem?_eq_getElem hig,
      Rgb.read_of_isGroup (hgroups _ (List.getElem_mem hig)) hread, ?_⟩
    have htaken : i < (colors.take p.size).length := by
      rw [List.length_take]
      omega
    rw [← hout, List.getElem?_append_left htaken, List.getElem?_take_of_lt hip,
      List.getElem?_eq_getElem hic]
  · have hsize : p.colors.length = p.size := rfl
    have htaken : (colors.take p.size).length = min groups.length p.size := by
      rw [List.length_take, hlength, Nat.min_comm]
    rw [← hout, List.getElem?_append_right (htaken ▸ hi), List.getElem?_drop, htaken]
    rcases Nat.le_total groups.length p.size with hfits | hover
    · rw [Nat.min_eq_left hfits] at hi ⊢
      congr 1
      omega
    · -- More groups than stops: both places are beyond the end.
      rw [Nat.min_eq_right hover] at hi ⊢
      rw [List.getElem?_eq_none (by omega), List.getElem?_eq_none (by omega)]

end Palette

namespace Explorer

variable {α : Type}

/-- **Colours from a link.** A link without six hexadecimal digits in a row is refused, for that
reason, and changes nothing; no link is refused for another reason. Otherwise the groups of the run
that begins at the first place where six digits stand, and that no joined groups from there on
exceed, are put into the leading stops, as many as both sides have, and nothing else changes. It is
what comes of reading what stands between the hyphens of the run, piece by piece: each is a
colour. -/
theorem importLink_run (e : Explorer α) (link : List Char) :
    let text := Text.trim link
    ((e.importLink link).1 = .error (.color .noPalette) ↔
      ∀ before g after, text = before ++ g ++ after → ¬ PaletteLink.IsGroup g) ∧
    (∀ f, (e.importLink link).1 = .error f →
      f = .color .noPalette ∧ (e.importLink link).2 = e) ∧
    ((∃ before g after, text = before ++ g ++ after ∧ PaletteLink.IsGroup g) →
      ∃ before groups after palette,
        text = before ++ List.intercalate ['-'] groups ++ after ∧
        PaletteLink.IsRun before groups after ∧
        (∀ others rest, (∀ g ∈ others, PaletteLink.IsGroup g) →
          List.intercalate ['-'] groups ++ after = List.intercalate ['-'] others ++ rest →
            others.length ≤ groups.length) ∧
        e.importLink link =
          (.ok (min groups.length e.palette.size), { e with palette := palette }) ∧
        e.palette.Takes groups palette ∧
        Palette.takeOver e.palette.colors (Text.splitOn '-' (List.intercalate ['-'] groups)) =
          (.ok (min groups.length e.palette.size), palette.colors)) := by
  intro text
  rcases e.importLink_cases link with
    ⟨hnone, hout⟩ | ⟨⟨_, _, _, hlink, hg⟩, before, groups, after, htext, hrun, hcount, hread⟩
  · -- Without a group the failure is the only answer, and the explorer is the one before.
    rw [hout]
    refine ⟨iff_of_true rfl hnone, fun f herror => ?_, fun ⟨before, g, after, hlink, hg⟩ =>
      absurd hg (hnone before g after hlink)⟩
    cases herror
    exact ⟨rfl, rfl⟩
  · -- With one the import cannot fail: every colour of the run can be read.
    have hok : ∀ f, (e.importLink link).1 ≠ .error f := by
      intro f herror
      rw [hcount] at herror
      cases herror
    refine ⟨iff_of_false (hok _) fun hnone => hnone _ _ _ hlink hg,
      fun f herror => absurd herror (hok f), fun _ => ?_⟩
    refine ⟨before, groups, after, (e.importLink link).2.palette, htext, hrun,
      fun others rest hothers hplace => (hrun.others_isPrefix hothers hplace).length_le,
      Prod.ext hcount rfl, Palette.takes_of_takeOver hrun.group hread, ?_⟩
    rw [hrun.splitOn_run, hread]

/-- Five digits are no group, and a longer run further on does not count: two stops are taken from
the first run, and three stay. -/
theorem importLink_run_of_two :
    let e := ofSettings (Settings.default : Settings Float) 8 8
    let link := " id=12345/abcdef-FEDCBA-xyz/111111-222222-333333".toList
    ∃ groups palette, e.importLink link = (.ok 2, { e with palette := palette }) ∧
      groups.length = 2 ∧ e.palette.Takes groups palette ∧
      palette.colors.take 2 = [⟨0xab, 0xcd, 0xef⟩, ⟨0xfe, 0xdc, 0xba⟩] := by
  intro e link
  have hlink : Text.trim link =
      "id=12345/".toList ++ "abcdef".toList ++ "-FEDCBA-xyz/111111-222222-333333".toList := by
    decide +kernel
  have hgroup : PaletteLink.IsGroup "abcdef".toList := ⟨rfl, List.all_eq_true.mp (by decide)⟩
  obtain ⟨-, groups, -, palette, -, -, -, hout, htakes, -⟩ :=
    (importLink_run e link).2.2 ⟨_, _, _, hlink, hgroup⟩
  have hcount : (e.importLink link).1.toOption = some 2 := by decide +kernel
  have hcolors : (e.importLink link).2.palette.colors.take 2 =
      [⟨0xab, 0xcd, 0xef⟩, ⟨0xfe, 0xdc, 0xba⟩] := by decide +kernel
  have hsize : e.palette.size = 5 := by decide +kernel
  rw [hout] at hcount hcolors
  -- The palette has room for more, so the count is that of the groups.
  have htwo : min groups.length e.palette.size = 2 := Option.some.inj hcount
  rw [htwo] at hout
  refine ⟨groups, palette, hout, ?_, htakes, hcolors⟩
  omega

end Explorer

end TurtleCurves
