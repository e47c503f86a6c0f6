import TurtleCurves.Color.PaletteLink
import TurtleCurves.Proofs.Color.Hex
import TurtleCurves.Proofs.Text.Joined

namespace TurtleCurves

/-!
# Colours taken from a link

A link is searched for groups of six hexadecimal digits, and the colours of the groups overwrite the
leading stops of a palette.

* `PaletteLink.IsRun` — the groups stand in the link one behind the other: nowhere does a group
  start earlier, and no group follows;
* `PaletteLink.find?_eq_none_iff`, `PaletteLink.isRun_of_find?` — the search finds that run, and
  nothing only if there is no group;
* `PaletteLink.IsRun.splitOn_run` — the groups are what stands between the hyphens of the run;
* `Palette.takeOver_of_groups` — groups are colours, so that overwriting stops with them never ends
  halfway;
* `Palette.importLink_of_colorless`, `Palette.importLink_of_group` — what comes of a link.
-/

/-! ### The search -/

namespace PaletteLink

/-- A group is read where six hexadecimal digits stand in front. -/
theorem group?_eq_some_iff {cs g rest : List Char} :
    group? cs = some (g, rest) ↔ IsGroup g ∧ cs = g ++ rest := by
  simp only [group?, Option.ite_none_right_eq_some, Option.some_inj, Prod.mk.injEq]
  constructor
  · rintro ⟨⟨hlength, hdigits⟩, rfl, rfl⟩
    exact ⟨⟨hlength, List.all_eq_true.mp hdigits⟩, (List.take_append_drop 6 cs).symm⟩
  · rintro ⟨hg, rfl⟩
    rw [List.take_left' hg.length, List.drop_left' hg.length]
    exact ⟨⟨hg.length, List.all_eq_true.mpr hg.digits⟩, rfl, rfl⟩

/-- Nothing is read where they do not. -/
theorem group?_eq_none_iff {cs : List Char} :
    group? cs = none ↔ ∀ g rest, cs = g ++ rest → ¬ IsGroup g := by
  constructor
  · intro h g rest hcs hg
    rw [group?_eq_some_iff.mpr ⟨hg, hcs⟩] at h
    cases h
  · intro h
    cases hgroup : group? cs with
    | none => rfl
    | some found =>
      obtain ⟨hg, hcs⟩ := group?_eq_some_iff.mp hgroup
      exact absurd hg (h found.1 found.2 hcs)

/-- Groups one behind the other, `before` and `after` them the rest of a link: they are the first
that there are, and all of them. -/
structure IsRun (before : List Char) (groups : List (List Char)) (after : List Char) : Prop where
  nonempty : groups ≠ []
  group : ∀ g ∈ groups, IsGroup g
  /-- Nowhere in the link does a group start earlier. -/
  first : ∀ earlier g rest,
    before ++ List.intercalate ['-'] groups ++ after = earlier ++ g ++ rest → IsGroup g →
      before.length ≤ earlier.length
  /-- No further group is joined to them. -/
  whole : ∀ g rest, after = '-' :: (g ++ rest) → ¬ IsGroup g

/-- Without a hyphen nothing follows. -/
theorem more_of_ne {c : Char} (h : c ≠ '-') (fuel : Nat) (cs : List Char) :
    more fuel (c :: cs) = [] := by
  unfold more
  split
  · next heq => exact absurd (List.cons.inj heq).1 h
  · rfl

/-- **The groups that follow.** They are read up to where no hyphen with a group behind it stands,
as long as there is fuel for every character. -/
theorem exists_groups_of_more {fuel : Nat} {cs : List Char} (hfuel : cs.length ≤ fuel) :
    ∃ (groups : List (List Char)) (after : List Char),
      cs = more fuel cs ++ after ∧ more fuel cs = (groups.map (['-'] ++ ·)).flatten ∧
        (∀ g ∈ groups, IsGroup g) ∧ ∀ g rest, after = '-' :: (g ++ rest) → ¬ IsGroup g := by
  induction fuel generalizing cs with
  | zero =>
    obtain rfl : cs = [] := List.length_eq_zero_iff.mp (Nat.le_zero.mp hfuel)
    exact ⟨[], [], rfl, rfl, by simp, fun g rest h => by cases h⟩
  | succ fuel ih =>
    cases cs with
    | nil => exact ⟨[], [], rfl, rfl, by simp, fun g rest h => by cases h⟩
    | cons c cs =>
      -- The next character is a hyphen with a group behind it, or the run is over.
      by_cases hc : c = '-'
      · subst hc
        cases hgroup : group? cs with
        | none =>
          have hmore : more (fuel + 1) ('-' :: cs) = [] := by rw [more, hgroup]
          refine ⟨[], '-' :: cs, by rw [hmore]; rfl, hmore, by simp, fun g rest h => ?_⟩
          exact group?_eq_none_iff.mp hgroup g rest (List.cons.inj h).2
        | some found =>
          obtain ⟨g, rest⟩ := found
          have hmore : more (fuel + 1) ('-' :: cs) = '-' :: (g ++ more fuel rest) := by
            rw [more, hgroup]
          obtain ⟨hg, rfl⟩ := group?_eq_some_iff.mp hgroup
          have hrest : rest.length ≤ fuel := by
            simp only [List.length_cons, List.length_append, hg.length] at hfuel
            omega
          obtain ⟨groups, after, htext, hgroups, hall, hwhole⟩ := ih hrest
          refine ⟨g :: groups, after, ?_, ?_, List.forall_mem_cons.mpr ⟨hg, hall⟩, hwhole⟩
          · rw [hmore, List.cons_append, List.append_assoc, ← htext]
          · rw [hmore, hgroups]
            rfl
      · have hmore := more_of_ne hc (fuel + 1) cs
        refine ⟨[], c :: cs, by rw [hmore]; rfl, hmore, by simp, fun g rest h => ?_⟩
        exact absurd (List.cons.inj h).1 hc

/-- A run begins where a group stands. -/
theorem run?_eq_none_iff {cs : List Char} : run? cs = none ↔ group? cs = none := by
  unfold run?
  cases group? cs with
  | none => simp
  | some found => simp

/-- **No palette** is found exactly when nowhere in the link six digits stand in a row. -/
theorem find?_eq_none_iff {link : List Char} :
    find? link = none ↔ ∀ before g after, link = before ++ g ++ after → ¬ IsGroup g := by
  induction link with
  | nil =>
    refine iff_of_true rfl fun before g after h hg => ?_
    have hlen := congrArg List.length h
    simp only [List.length_nil, List.length_append, hg.length] at hlen
    omega
  | cons c cs ih =>
    unfold find?
    constructor
    · intro h before g after hlink hg
      split at h
      · cases h
      · next hrun =>
        -- A group stands at the front, or somewhere in the rest.
        cases before with
        | nil => exact group?_eq_none_iff.mp (run?_eq_none_iff.mp hrun) g after hlink hg
        | cons b before => exact ih.mp h before g after (List.cons.inj hlink).2 hg
    · intro h
      have hhere : run? (c :: cs) = none := by
        rw [run?_eq_none_iff, group?_eq_none_iff]
        intro g rest hcs
        exact h [] g rest hcs
      rw [hhere]
      exact ih.mpr fun before g after hcs => h (c :: before) g after (by rw [hcs]; rfl)

/-- **The run that is found** is the first in the link and all of it. -/
theorem isRun_of_find? {link run : List Char} (h : find? link = some run) :
    ∃ before groups after, link = before ++ List.intercalate ['-'] groups ++ after ∧
      IsRun before groups after ∧ run = List.intercalate ['-'] groups := by
  induction link with
  | nil => cases h
  | cons c cs ih =>
    unfold find? at h
    cases hgroup : group? (c :: cs) with
    | none =>
      -- No group starts here, so the run is the one of the rest.
      rw [run?_eq_none_iff.mpr hgroup] at h
      obtain ⟨before, groups, after, hcs, hrun, htext⟩ := ih h
      refine ⟨c :: before, groups, after, by rw [hcs]; rfl, ⟨hrun.nonempty, hrun.group, ?_,
        hrun.whole⟩, htext⟩
      intro earlier g rest hlink hg
      rw [List.cons_append, List.cons_append, ← hcs] at hlink
      cases earlier with
      | nil => exact absurd hg (group?_eq_none_iff.mp hgroup g rest hlink)
      | cons b earlier =>
        have htail := (List.cons.inj hlink).2
        exact Nat.succ_le_succ (hrun.first earlier g rest (hcs ▸ htail) hg)
    | some found =>
      obtain ⟨g, rest⟩ := found
      obtain ⟨hg, hlink⟩ := group?_eq_some_iff.mp hgroup
      have hrun : run? (c :: cs) = some (g ++ more rest.length rest) := by rw [run?, hgroup]
      rw [hrun] at h
      obtain rfl := Option.some.inj h
      obtain ⟨groups, after, hrest, hmore, hgroups, hwhole⟩ :=
        exists_groups_of_more (Nat.le_refl rest.length)
      have htext : g ++ more rest.length rest = List.intercalate ['-'] (g :: groups) := by
        rw [Text.intercalate_cons, hmore]
      refine ⟨[], g :: groups, after, ?_, ⟨List.cons_ne_nil _ _,
        List.forall_mem_cons.mpr ⟨hg, hgroups⟩, fun _ _ _ _ _ => Nat.zero_le _, hwhole⟩, htext⟩
      rw [← htext, List.nil_append, List.append_assoc, ← hrest, hlink]

/-- **The hyphens of a run** stand between its groups and nowhere else. -/
theorem IsRun.splitOn_run {before after : List Char} {groups : List (List Char)}
    (h : IsRun before groups after) : Text.splitOn '-' (List.intercalate ['-'] groups) = groups := by
  refine Text.splitOn_intercalate h.nonempty fun g hg hhyphen => ?_
  exact absurd ((h.group g hg).digits '-' hhyphen) (by decide)

end PaletteLink

/-! ### The stops -/

namespace Palette

/-- Groups are colours. -/
theorem exists_colors_of_groups {groups : List (List Char)}
    (hgroups : ∀ g ∈ groups, PaletteLink.IsGroup g) :
    ∃ colors : List Rgb, groups.map Rgb.ofHexDigits? = colors.map some := by
  induction groups with
  | nil => exact ⟨[], rfl⟩
  | cons g groups ih =>
    obtain ⟨hg, hrest⟩ := List.forall_mem_cons.mp hgroups
    obtain ⟨c, hc⟩ := Option.isSome_iff_exists.mp (Rgb.isSome_ofHexDigits?.mpr hg)
    obtain ⟨colors, hcolors⟩ := ih hrest
    exact ⟨c :: colors, by rw [List.map_cons, List.map_cons, hc, hcolors]⟩

/-- **Nothing ends it halfway** when the texts are groups: as many stops are overwritten as both
sides have. -/
theorem takeOver_of_groups {groups : List (List Char)} {colors : List Rgb}
    (hgroups : ∀ g ∈ groups, PaletteLink.IsGroup g)
    (hcolors : groups.map Rgb.ofHexDigits? = colors.map some) (stops : List Rgb) :
    takeOver stops groups =
      (.ok (min colors.length stops.length),
        colors.take stops.length ++ stops.drop colors.length) := by
  -- By the stops and the groups side by side: whichever ends first ends it.
  induction stops generalizing groups colors with
  | nil => simp [takeOver]
  | cons stop stops ih =>
    cases groups with
    | nil =>
      obtain rfl : colors = [] := List.map_eq_nil_iff.mp hcolors.symm
      simp [takeOver]
    | cons g groups =>
      cases colors with
      | nil => cases hcolors
      | cons color colors =>
        obtain ⟨hg, hgroups⟩ := List.forall_mem_cons.mp hgroups
        obtain ⟨hcolor, hcolors⟩ := List.cons.inj hcolors
        rw [takeOver, Rgb.read_of_isGroup hg hcolor]
        simp only [ih hgroups hcolors, List.length_cons, List.take_succ_cons, List.drop_succ_cons,
          List.cons_append, Nat.add_min_add_right]
        rfl

/-- In general it is not all or nothing: the second text is no colour, and the first has replaced
its stop by then. -/
example : takeOver [Rgb.black, Rgb.black] ["ffffff".toList, "fffff".toList] =
    (.error (.invalidHex "fffff"), [Rgb.white, Rgb.black]) := by
  decide +kernel

/-- A link without a group is refused, and takes nothing over. -/
theorem importLink_of_colorless {p : Palette} {link : List Char}
    (hlink : ∀ before g after, Text.trim link = before ++ g ++ after → ¬ PaletteLink.IsGroup g) :
    p.importLink link = (.error .noPalette, p) := by
  rw [importLink, PaletteLink.find?_eq_none_iff.mpr hlink]

/-- **Colours from a link.** What comes of a link with a group is what comes of overwriting the
stops one after the other with the groups of its run, and that never ends halfway. -/
theorem importLink_of_group {p : Palette} {link before g after : List Char}
    (hlink : Text.trim link = before ++ g ++ after) (hg : PaletteLink.IsGroup g) :
    ∃ before groups after,
      Text.trim link = before ++ List.intercalate ['-'] groups ++ after ∧
        PaletteLink.IsRun before groups after ∧
        (p.importLink link).1 = .ok (min groups.length p.size) ∧
        takeOver p.colors groups =
          (.ok (min groups.length p.size), (p.importLink link).2.colors) := by
  cases hfound : PaletteLink.find? (Text.trim link) with
  | none => exact absurd hg (PaletteLink.find?_eq_none_iff.mp hfound before g after hlink)
  | some run =>
    obtain ⟨before, groups, after, htext, hrun, rfl⟩ := PaletteLink.isRun_of_find? hfound
    -- Every group of a run reads as a colour, so the loop over the slots does not stop early.
    obtain ⟨colors, hcolors⟩ := exists_colors_of_groups hrun.group
    have hlength : groups.length = colors.length := by
      simpa using congrArg List.length hcolors
    have htaken : (takeOver p.colors groups).1 = .ok (min groups.length p.size) := by
      rw [takeOver_of_groups hrun.group hcolors, hlength]
      rfl
    refine ⟨before, groups, after, htext, hrun, ?_, ?_⟩
    · rw [importLink, hfound]
      show (takeOver p.colors (Text.splitOn '-' _)).1 = _
      rw [hrun.splitOn_run, htaken]
    · rw [importLink, hfound]
      show _ = (_, (takeOver p.colors (Text.splitOn '-' _)).2)
      rw [hrun.splitOn_run, ← htaken]

end Palette

end TurtleCurves
