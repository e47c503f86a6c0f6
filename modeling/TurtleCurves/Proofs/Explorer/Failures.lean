import TurtleCurves.Proofs.Color.Links
import TurtleCurves.Proofs.Explorer.Effect
import TurtleCurves.Proofs.Preset.Table

namespace TurtleCurves

/-!
# Operations that do not happen

An operation either happens as a whole or leaves the explorer as it was.  There are two exceptions,
and both are small: a tap lets go of the pointer before it asks for growth, and a run whose step is
refused is over.

* `Explorer.Fails` — the list of the conditions under which an operation fails, each with its
  failure;
* `Explorer.failure?_eq_some_iff` — an operation fails under these conditions only;
* `Explorer.perform_of_fails`, `Explorer.perform_release_of_failure?`,
  `Explorer.perform_tick_of_refused` — what is left behind;
* `Explorer.takeOver_of_importLink` — colours from a link are all taken or none;
* `Explorer.perform_of_failure` — all of it in one place.
-/

variable {α : Type}

/-- The operation needs something on show. -/
def Operation.needsShow : Operation α → Bool
  | .grow | .rewind | .toggle _ => true
  | _ => false

namespace Explorer

/-! ### Single operations -/

/-- A link without six digits in a row is refused. -/
theorem importLink_of_colorless {e : Explorer α} {link : List Char}
    (hlink : ∀ before g after, Text.trim link = before ++ g ++ after → ¬ PaletteLink.IsGroup g) :
    e.importLink link = (.error (.color .noPalette), e) := by
  rw [importLink, Palette.importLink_of_colorless hlink]
  rfl

/-- A link without six digits in a row is refused.  Taking colours from any other link is
overwriting stops one after the other with the groups of its first run, and never ends halfway. -/
theorem importLink_cases (e : Explorer α) (link : List Char) :
    (∀ before g after, Text.trim link = before ++ g ++ after → ¬ PaletteLink.IsGroup g) ∧
        e.importLink link = (.error (.color .noPalette), e) ∨
      (∃ before g after, Text.trim link = before ++ g ++ after ∧ PaletteLink.IsGroup g) ∧
        ∃ before groups after,
          Text.trim link = before ++ List.intercalate ['-'] groups ++ after ∧
            PaletteLink.IsRun before groups after ∧
            (e.importLink link).1 = .ok (min groups.length e.palette.size) ∧
            Palette.takeOver e.palette.colors groups =
              (.ok (min groups.length e.palette.size), (e.importLink link).2.palette.colors) := by
  by_cases hgroup : ∃ before g after, Text.trim link = before ++ g ++ after ∧ PaletteLink.IsGroup g
  · obtain ⟨_, _, _, hlink, hg⟩ := hgroup
    obtain ⟨before, groups, after, htext, hrun, hcount, htaken⟩ :=
      e.palette.importLink_of_group hlink hg
    refine .inr ⟨⟨_, _, _, hlink, hg⟩, before, groups, after, htext, hrun, ?_, htaken⟩
    show (e.palette.importLink link).1.mapError Failure.color = _
    rw [hcount]
    rfl
  · have hnone : ∀ before g after, Text.trim link = before ++ g ++ after →
        ¬ PaletteLink.IsGroup g :=
      fun before g after hlink hg => hgroup ⟨before, g, after, hlink, hg⟩
    exact .inl ⟨hnone, importLink_of_colorless hnone⟩

/-- Whatever comes of a link that is not refused comes of the groups of its first run. -/
theorem takeOver_of_importLink {e : Explorer α} {link : List Char} {count : Nat}
    (h : (e.importLink link).1 = .ok count) :
    ∃ before groups after,
      Text.trim link = before ++ List.intercalate ['-'] groups ++ after ∧
        PaletteLink.IsRun before groups after ∧
        Palette.takeOver e.palette.colors groups =
          (.ok count, (e.importLink link).2.palette.colors) := by
  rcases e.importLink_cases link with
    ⟨-, hnone⟩ | ⟨-, before, groups, after, htext, hrun, hcount, htaken⟩
  · rw [hnone] at h
    cases h
  · rw [hcount] at h
    cases h
    exact ⟨before, groups, after, htext, hrun, htaken⟩

/-- **A step of a run** is refused when it is due and the word is too long, and only then. -/
theorem tick_refused_iff {e : Explorer α} {now : Moment} :
    (e.tick now).1 = .finished .refused ↔
      ∃ r d, e.scheduler.run = some r ∧ e.derivation = some d ∧ r.due ≤ now ∧
        e.limits.manual < d.size := by
  constructor
  · intro h
    cases hd : e.derivation with
    | none =>
      rw [tick_of_none hd] at h
      cases h
    | some d =>
      -- Whatever is missing, another answer is given.
      cases hr : e.scheduler.run with
      | none =>
        rw [tick_of_run_eq_none hr] at h
        cases h
      | some r =>
        by_cases hearly : now < r.due
        · rw [tick_of_early hr hd hearly] at h
          cases h
        have hdue : r.due ≤ now := Nat.le_of_not_lt hearly
        by_cases hsize : d.size ≤ e.limits.manual
        · -- A run whose step is taken ends for other reasons.
          rcases tick_of_le hr hd hdue hsize with ⟨reason, hstop, hout⟩ | ⟨_, hout⟩
          · rw [hout] at h
            cases h
            rcases Scheduler.abort?_eq_some hstop with hother | hother <;> cases hother
          · rw [hout] at h
            cases h
        · exact ⟨r, d, rfl, rfl, hdue, Nat.lt_of_not_le hsize⟩
  · rintro ⟨r, d, hr, hd, hdue, hsize⟩
    rw [tick_of_lt hr hd hdue hsize]

variable [Scalar α]

/-- A key that no preset has is refused, and named. -/
theorem load_of_notMem {e : Explorer α} {key : String} (hkey : key ∉ e.presets.keys) :
    e.load key = (.error (.unknownPreset key), e) := by
  rw [load, PresetTable.get?_eq_none_iff.mpr hkey]

/-- A grammar that cannot be drawn is refused with its fault. -/
theorem customize_of_error {e : Explorer α} {editor : Editor α} {fault : Grammar.Fault α}
    (hcheck : (e.customGrammar editor).check = .error fault) :
    e.customize editor = (.error (.fault fault), e) := by
  simp only [customize, hcheck]

/-! ### The list -/

/-- The conditions under which the operation `op` fails on `e`, each with its failure. -/
inductive Fails (e : Explorer α) : Operation α → Failure α → Prop where
  /-- A preset is asked for, and none has the key. -/
  | unknown {key : String} (hkey : key ∉ e.presets.keys) :
      Fails e (.load key) (.unknownPreset key)
  /-- A grammar is typed in that cannot be drawn. -/
  | faulty {editor : Editor α} {fault : Grammar.Fault α}
      (hcheck : (e.customGrammar editor).check = .error fault) :
      Fails e (.customize editor) (.fault fault)
  /-- Nothing is on show. -/
  | empty {op : Operation α} (hop : op.needsShow = true) (hd : e.derivation = none) :
      Fails e op .noSystem
  /-- A step by hand is asked for, directly or by a tap, and the word is too long. -/
  | overgrown {op : Operation α} {d : Derivation α}
      (hop : op = .grow ∨ op = .release ∧ e.viewport.release = .tap)
      (hd : e.derivation = some d) (hsize : e.limits.manual < d.size) :
      Fails e op (.overgrown ⟨d.size, e.limits.manual⟩)
  /-- Nowhere in the link six hexadecimal digits stand in a row. -/
  | colorless {link : List Char}
      (hlink : ∀ before g after, Text.trim link = before ++ g ++ after → ¬ PaletteLink.IsGroup g) :
      Fails e (.importLink link) (.color .noPalette)

/-- **Nothing changes** when an operation fails, unless the pointer was let go by it. -/
theorem perform_of_fails {e : Explorer α} {op : Operation α} {f : Failure α} (h : e.Fails op f)
    (hop : op ≠ .release) : e.perform op = e := by
  -- One case for each way to fail: every branch returns the state it was given.
  cases h with
  | unknown hkey => exact congrArg Prod.snd (load_of_notMem hkey)
  | faulty hcheck => exact congrArg Prod.snd (customize_of_error hcheck)
  | empty hneeds hd =>
    cases op with
    | grow => exact congrArg Prod.snd (grow_of_none hd)
    | rewind => exact congrArg Prod.snd (rewind_of_none hd)
    | toggle now => exact congrArg Prod.snd (toggle_of_none hd now)
    | _ => cases hneeds
  | overgrown hasks hd hsize =>
    rcases hasks with rfl | ⟨rfl, -⟩
    · exact congrArg Prod.snd (grow_of_lt hd hsize)
    · exact absurd rfl hop
  | colorless hlink => exact congrArg Prod.snd (importLink_of_colorless hlink)

/-- A tap fails as the step by hand does that it asks for. -/
theorem failure?_release_of_tap {e : Explorer α} (htap : e.viewport.release = .tap)
    {d : Derivation α} (hd : e.derivation = some d) :
    e.failure? .release = e.letGo.failure? .grow := by
  rw [failure?, failure?, release_of_tap htap hd]
  cases e.letGo.grow.1 <;> rfl

/-- **Under these conditions** an operation fails. -/
theorem failure?_of_fails {e : Explorer α} {op : Operation α} {f : Failure α} (h : e.Fails op f) :
    e.failure? op = some f := by
  cases h with
  | unknown hkey => rw [failure?, load_of_notMem hkey]; rfl
  | faulty hcheck => rw [failure?, customize_of_error hcheck]; rfl
  | empty hneeds hd =>
    cases op with
    | grow => rw [failure?, grow_of_none hd]; rfl
    | rewind => rw [failure?, rewind_of_none hd]; rfl
    | toggle now => rw [failure?, toggle_of_none hd]; rfl
    | _ => cases hneeds
  | overgrown hasks hd hsize =>
    -- A growth is asked for directly, or by a release that was a tap.
    rcases hasks with rfl | ⟨rfl, htap⟩
    · rw [failure?, grow_of_lt hd hsize]; rfl
    · rw [failure?_release_of_tap htap hd]
      have hgrow : e.letGo.grow = _ := grow_of_lt hd hsize
      rw [failure?, hgrow]; rfl
  | colorless hlink => rw [failure?, importLink_of_colorless hlink]; rfl

/-- A step by hand fails under no other conditions. -/
theorem fails_grow {e : Explorer α} {f : Failure α} (h : e.failure? .grow = some f) :
    e.Fails .grow f := by
  cases hd : e.derivation with
  | none =>
    rw [failure?, grow_of_none hd] at h
    cases h
    exact .empty rfl hd
  | some d =>
    -- A growth within the limit succeeds, so the failure is the one for the limit.
    by_cases hsize : d.size ≤ e.limits.manual
    · rw [failure?, grow_of_le hd hsize] at h
      cases h
    · have hlt := Nat.lt_of_not_le hsize
      rw [failure?, grow_of_lt hd hlt] at h
      cases h
      exact .overgrown (.inl rfl) hd hlt

/-- A release that fails is a tap whose growth fails. -/
theorem fails_release {e : Explorer α} {f : Failure α} (h : e.failure? .release = some f) :
    e.Fails .release f := by
  by_cases htap : e.viewport.release = .tap ∧ e.derivation.isSome = true
  · obtain ⟨htap, hsome⟩ := htap
    obtain ⟨d, hd⟩ := Option.isSome_iff_exists.mp hsome
    rw [failure?_release_of_tap htap hd] at h
    cases fails_grow h with
    | empty _ hnone => cases hnone.symm.trans hd
    | overgrown _ hd' hsize => exact .overgrown (.inr ⟨rfl, htap⟩) hd' hsize
  · rw [failure?, release_of_other htap] at h
    cases h

/-- **Under no other conditions** it does. -/
theorem fails_of_failure? {e : Explorer α} {op : Operation α} {f : Failure α}
    (h : e.failure? op = some f) : e.Fails op f := by
  -- Whenever no condition holds, the outcome is no failure.
  cases op with
  | load key =>
    by_cases hkey : key ∈ e.presets.keys
    · obtain ⟨p, hp⟩ := PresetTable.exists_get? hkey
      rw [failure?, load_eq hp] at h
      cases h
    · rw [failure?, load_of_notMem hkey] at h
      cases h
      exact .unknown hkey
  | customize editor =>
    cases hcheck : (e.customGrammar editor).check with
    | ok _ =>
      rw [failure?, customize_eq hcheck] at h
      cases h
    | error fault =>
      rw [failure?, customize_of_error hcheck] at h
      cases h
      exact .faulty hcheck
  | grow => exact fails_grow h
  | rewind =>
    cases hd : e.derivation with
    | none =>
      rw [failure?, rewind_of_none hd] at h
      cases h
      exact .empty rfl hd
    | some d =>
      simp only [failure?, rewind, hd, failureOf] at h
      cases h
  | toggle now =>
    cases hd : e.derivation with
    | none =>
      rw [failure?, toggle_of_none hd] at h
      cases h
      exact .empty rfl hd
    | some d =>
      simp only [failure?, toggle, hd, failureOf] at h
      cases h
  | release => exact fails_release h
  | importLink link =>
    rcases e.importLink_cases link with ⟨hlink, hnone⟩ | ⟨-, _, _, _, _, _, hcount, _⟩
    · rw [failure?, hnone] at h
      cases h
      exact .colorless hlink
    · rw [failure?, hcount] at h
      cases h
  | _ => cases h

/-- **Failures.** -/
theorem failure?_eq_some_iff {e : Explorer α} {op : Operation α} {f : Failure α} :
    e.failure? op = some f ↔ e.Fails op f := ⟨fails_of_failure?, failure?_of_fails⟩

/-- When letting go of the pointer fails, the pointer is let go all the same. -/
theorem perform_release_of_failure? {e : Explorer α} {f : Failure α}
    (h : e.failure? .release = some f) :
    e.viewport.release = .tap ∧ e.perform .release = e.letGo := by
  cases fails_of_failure? h with
  | empty hneeds => cases hneeds
  | overgrown hasks hd hsize =>
    rcases hasks with hgrow | ⟨-, htap⟩
    · cases hgrow
    · refine ⟨htap, ?_⟩
      have hgrow : e.letGo.grow = _ := grow_of_lt hd hsize
      show e.release.2 = e.letGo
      rw [release_of_tap htap hd, hgrow]

/-- When a run is refused its step, the run is over. -/
theorem perform_tick_of_refused {e : Explorer α} {now : Moment}
    (h : (e.tick now).1 = .finished .refused) :
    e.perform (.tick now) = { e with scheduler := .idle } := by
  obtain ⟨r, d, hr, hd, hdue, hsize⟩ := tick_refused_iff.mp h
  exact congrArg Prod.snd (tick_of_lt hr hd hdue hsize)

/-! ### Stops that do not exist -/

/-- A stop that does not exist is not recoloured. -/
theorem perform_setColor_of_le {e : Explorer α} {i : Nat} (hi : e.palette.size ≤ i) (c : Rgb) :
    e.perform (.setColor i c) = e := by
  have hsame : e.palette.set i c = e.palette := Palette.ext (List.set_eq_of_length_le hi)
  show { e with palette := e.palette.set i c } = e
  rw [hsame]

/-- Nor is it chosen for a letter. -/
theorem perform_setSymbol_of_le {e : Explorer α} {i : Nat} (hi : e.palette.size ≤ i) (c : Char) :
    e.perform (.setSymbol c i) = e := if_neg (Nat.not_lt_of_le hi)

/-! ### All or nothing -/

/-- **Failures leave no trace.** Of every state: an operation fails under the listed conditions and
no others; what fails leaves the whole state as it is, except that a tap whose growth is refused
lets go of the pointer; a run whose step is refused is over, and nothing else changes; palette stops
that do not exist are neither recoloured nor chosen.  Colours are taken from a link stop by stop,
and no group of digits ends that halfway. -/
theorem perform_of_failure (e : Explorer α) :
    (∀ op f, e.failure? op = some f ↔ e.Fails op f) ∧
      (∀ op f, e.failure? op = some f → op ≠ .release → e.perform op = e) ∧
      (∀ f, e.failure? .release = some f →
        e.viewport.release = .tap ∧ e.perform .release = e.letGo) ∧
      (∀ now, (e.tick now).1 = .finished .refused →
        e.perform (.tick now) = { e with scheduler := .idle }) ∧
      (∀ i c, e.palette.size ≤ i → e.perform (.setColor i c) = e) ∧
      (∀ i c, e.palette.size ≤ i → e.perform (.setSymbol c i) = e) ∧
      ∀ link count, (e.importLink link).1 = .ok count → ∃ before groups after,
        Text.trim link = before ++ List.intercalate ['-'] groups ++ after ∧
          PaletteLink.IsRun before groups after ∧
          Palette.takeOver e.palette.colors groups =
            (.ok count, (e.importLink link).2.palette.colors) := by
  refine ⟨fun op f => failure?_eq_some_iff, fun op f hfail hop => ?_,
    fun f hfail => perform_release_of_failure? hfail, fun now hout => perform_tick_of_refused hout,
    fun i c hi => perform_setColor_of_le hi c, fun i c hi => perform_setSymbol_of_le hi c,
    fun link count hout => takeOver_of_importLink hout⟩
  exact perform_of_fails (failure?_eq_some_iff.mp hfail) hop

/-- A curve that may not grow at all, with a run under way and the pointer pressed: everything
that can fail does. -/
theorem perform_of_failure_koch :
    let limits : Limits := ⟨0, 10⟩
    let s : Settings Float := { Settings.default with limits := limits }
    let e := (ofSettings s 8 8).performAll [.load "koch", .toggle 0, .press ⟨1, 1⟩]
    let editor : Editor Float := ⟨['F'], [], 60, 0, 0⟩
    let link := "264653-2a9d8f-e9c46".toList
    (e.failure? (.load "wave") = some (.unknownPreset "wave") ∧ e.perform (.load "wave") = e) ∧
      (e.failure? (.customize editor) = some (.fault (.length 0)) ∧
        e.perform (.customize editor) = e) ∧
      (e.failure? .grow = some (.overgrown ⟨1, 0⟩) ∧ e.perform .grow = e) ∧
      (e.failure? (.importLink "26465-3".toList) = some (.color .noPalette) ∧
        e.perform (.importLink "26465-3".toList) = e) ∧
      (e.failure? .release = some (.overgrown ⟨1, 0⟩) ∧ e.perform .release = e.letGo) ∧
      ((e.tick 500).1 = .finished .refused ∧
        e.perform (.tick 500) = { e with scheduler := .idle }) ∧
      (e.palette.size ≤ 5 ∧ e.perform (.setColor 5 Rgb.white) = e ∧
        e.perform (.setSymbol 'F' 5) = e) ∧
      (e.importLink link).1 = .ok 2 ∧ ∃ before groups after,
        Text.trim link = before ++ List.intercalate ['-'] groups ++ after ∧
          PaletteLink.IsRun before groups after ∧
          Palette.takeOver e.palette.colors groups =
            (.ok 2, (e.importLink link).2.palette.colors) := by
  intro limits s e editor link
  -- A size limit of nothing makes every growth fail, with a run under way and a finger down.
  obtain ⟨-, hkept, hletGo, hrefused, hcolor, hsymbol, htaken⟩ := perform_of_failure e
  have hload : e.failure? (.load "wave") = some (.unknownPreset "wave") := by decide +kernel
  have hcustomize : e.failure? (.customize editor) = some (.fault (.length 0)) := by decide +kernel
  have hgrow : e.failure? .grow = some (.overgrown ⟨1, 0⟩) := by decide +kernel
  have hlink : e.failure? (.importLink "26465-3".toList) = some (.color .noPalette) := by
    decide +kernel
  have hrelease : e.failure? .release = some (.overgrown ⟨1, 0⟩) := by decide +kernel
  have htick : (e.tick 500).1 = .finished .refused := by decide +kernel
  have hsize : e.palette.size ≤ 5 := by decide +kernel
  have hout : (e.importLink link).1 = .ok 2 := by decide +kernel
  exact ⟨⟨hload, hkept _ _ hload nofun⟩, ⟨hcustomize, hkept _ _ hcustomize nofun⟩,
    ⟨hgrow, hkept _ _ hgrow nofun⟩, ⟨hlink, hkept _ _ hlink nofun⟩,
    ⟨hrelease, (hletGo _ hrelease).2⟩, ⟨htick, hrefused _ htick⟩,
    ⟨hsize, hcolor _ _ hsize, hsymbol _ _ hsize⟩, hout, htaken link 2 hout⟩

end Explorer

end TurtleCurves
