import Mathlib.Data.List.Induction
import TurtleCurves.Proofs.Window.Taps

namespace TurtleCurves

/-!
# When a view is held

A view is held from a press of the pointer on, and also from the moment at which one of two fingers
is lifted: the finger that stays goes on as a pointer.  Only the pointer lets the view go.  A finger
that is not the pointer can therefore leave the view held when it is lifted in its turn.

* `Touches.LeavesOne` — among some touches a lift leaves one finger of two;
* `Viewport.isDragging_touchAll` — only such a lift makes a touch hold the view;
* `CanvasInput.Keeps` — nothing in a frame lets the view go;
* `Window.isDragging_canvas` — one frame: what holds the view, and what lets it go;
* `Window.isDragging_canvasAll` — many frames: something has held the view, and nothing has let it
  go since;
* `CanvasInput.ReportsReleases` — a frame in which the button goes up says so; the frames that are
  gathered from single events do, `reportsReleases_gatherAll`;
* `Window.isDragging_iff_stray` — with the button up a view is held exactly if a lift has left one
  finger and nothing has let the view go since;
* `Window.isDragging_without_pointer` — so it can be when no finger is down any more.
-/

variable {α : Type}

/-! ### Fingers that are left -/

namespace Touches

/-- Among some touches a lift leaves one finger of two or more. -/
def LeavesOne (t : Touches α) (es : List (TouchEvent α)) : Prop :=
  ∃ before e after, es = before ++ e :: after ∧ (t.updateAll before).EndsPair e

/-- No touch lifts no finger. -/
theorem leavesOne_nil (t : Touches α) : ¬ t.LeavesOne [] := by
  rintro ⟨before, e, after, hsplit, _⟩
  simp at hsplit

/-- Among some touches the first leaves one finger of two, or one of the others does later. -/
theorem leavesOne_cons {t : Touches α} {e : TouchEvent α} {es : List (TouchEvent α)} :
    t.LeavesOne (e :: es) ↔ t.EndsPair e ∨ (t.update e).2.LeavesOne es := by
  constructor
  · rintro ⟨before, e', after, hsplit, hends⟩
    -- The lift is the first touch exactly if nothing is before it.
    cases before with
    | nil =>
      obtain ⟨rfl, rfl⟩ := List.cons.inj hsplit
      exact .inl hends
    | cons b before =>
      obtain ⟨rfl, rfl⟩ := List.cons.inj hsplit
      exact .inr ⟨before, e', after, rfl, hends⟩
  · rintro (hends | ⟨before, e', after, rfl, hends⟩)
    · exact ⟨[], e, es, rfl, hends⟩
    · exact ⟨e :: before, e', after, rfl, hends⟩

end Touches

/-! ### Views that are held -/

namespace Viewport

/-- Whether a view is held is read off its grip. -/
theorem isDragging_congr {v w : Viewport α} (h : w.held = v.held) : w.isDragging = v.isDragging :=
  congrArg Option.isSome h

@[simp] theorem isDragging_markMoved (v : Viewport α) : v.markMoved.isDragging = v.isDragging :=
  Option.isSome_map

variable [Scalar α]

@[simp] theorem isDragging_wheel (v : Viewport α) (anchor : Point α) (delta : α) :
    (v.wheel anchor delta).isDragging = v.isDragging := isDragging_congr (held_wheel v anchor delta)

@[simp] theorem isDragging_panMove (v : Viewport α) (p : Point α) :
    (v.panMove p).isDragging = v.isDragging := by
  rw [isDragging, held_panMove, Option.isSome_map]
  rfl

/-- A touch holds a view only if it leaves one finger of two, and never lets it go. -/
theorem isDragging_pinch (v : Viewport α) (t : Touches α) (e : TouchEvent α) :
    (v.pinch (t.update e).1).isDragging = true ↔ v.isDragging = true ∨ t.EndsPair e := by
  by_cases hends : t.EndsPair e
  · -- The finger that stays is taken for a pointer from here on.
    obtain ⟨p, hp⟩ := Touches.update_of_endsPair hends
    rw [hp]
    show (v.pinchEnd (some p)).isDragging = true ↔ _
    simp only [pinchEnd, isDragging_markMoved, hends, or_true, iff_true]
    rfl
  · -- Every other transition leaves the grip, if there is one.
    rw [or_iff_left hends]
    cases hp : (t.update e).1 with
    | none => rfl
    | some p =>
      cases p with
      | start a b => exact Eq.to_iff (congrArg (· = true) (isDragging_markMoved v))
      | move a b => exact Eq.to_iff (congrArg (· = true) (isDragging_congr (held_pinchMove v a b)))
      | stop remaining => exact absurd (Touches.endsPair_of_stop hp) hends

/-- So it is with many touches. -/
theorem isDragging_touchAll (v : Viewport α) (t : Touches α) (es : List (TouchEvent α)) :
    (v.touchAll t es).isDragging = true ↔ v.isDragging = true ∨ t.LeavesOne es := by
  induction es generalizing v t with
  | nil => exact (or_iff_left (Touches.leavesOne_nil t)).symm
  | cons e es ih =>
    rw [Touches.leavesOne_cons, ← or_assoc, ← isDragging_pinch]
    exact ih _ _

end Viewport

/-! ### Frames -/

variable [Scalar α]

namespace CanvasInput

/-- A lift in this frame leaves one finger of two; `t` are the fingers before it. -/
def LeavesOne (area : Area α) (t : Touches α) (f : CanvasInput α) : Prop :=
  t.LeavesOne (f.touches.map (·.within area))

/-- Nothing in this frame lets the view go: the button is not let go, and the view is not reset. -/
def Keeps (f : CanvasInput α) : Prop := f.pointer.released = false ∧ f.keys.home = false

end CanvasInput

namespace Window

/-- The touches of a frame hold the view only by leaving one finger of two. -/
theorem isDragging_touched (w : Window α) (area : Area α) (f : CanvasInput α) :
    (w.touched area f).explorer.viewport.isDragging = true ↔
      w.explorer.viewport.isDragging = true ∨ f.LeavesOne area w.touches := by
  rw [viewport_touched]
  exact Viewport.isDragging_touchAll _ _ _

/-- The pointer holds the view by a press on the canvas, and only by that. -/
theorem isDragging_heard (w : Window α) (area : Area α) (f : CanvasInput α) :
    (w.heard area f).explorer.viewport.isDragging = true ↔
      (w.touched area f).explorer.viewport.isDragging = true ∨ f.Presses area := by
  unfold heard CanvasInput.Presses
  cases f.pointer.position with
  | none => simp
  | some p =>
    -- The wheel comes before the press, and changes no grip.
    have hwheel : (wheel area (w.touched area f) p f.pointer).explorer.viewport.isDragging =
        (w.touched area f).explorer.viewport.isDragging := by
      unfold wheel
      split
      · exact Viewport.isDragging_wheel _ _ _
      · rfl
    by_cases hpress : (f.pointer.pressed && area.contains p) = true
    · have hboth := Bool.and_eq_true_iff.mp hpress
      simp only [drag, hboth, Option.some.injEq, exists_eq_left', and_self, or_true,
        iff_true]
      rfl
    · have hnot : ¬ (f.pointer.pressed = true ∧ area.contains p = true) := fun hboth =>
        hpress (Bool.and_eq_true_iff.mpr hboth)
      simp only [drag, if_neg hpress, Option.some.injEq, exists_eq_left', hnot, or_false, ← hwheel]
      split
      · exact Eq.to_iff (congrArg (· = true) (Viewport.isDragging_panMove _ _))
      · rfl

/-- The button lets the view go when it is reported as let go. -/
theorem isDragging_letGo (w : Window α) (s : Sample α) :
    (w.letGo s).explorer.viewport.isDragging = true ↔
      w.explorer.viewport.isDragging = true ∧ s.released = false := by
  unfold letGo
  cases hheld : w.explorer.viewport.isDragging with
  | false => simp [hheld]
  | true =>
    cases hreleased : s.released with
    | false => simp [hheld]
    | true =>
      have hnone : (w.report w.explorer.release).explorer.viewport.held = none :=
        Explorer.held_release w.explorer
      simp [Viewport.isDragging, hnone]

/-- The home key lets it go with the view. -/
theorem isDragging_keys (w : Window α) (ks : Keys) :
    (w.keys ks).explorer.viewport.isDragging = true ↔
      w.explorer.viewport.isDragging = true ∧ ks.home = false := by
  rw [viewport_keys]
  cases ks.home with
  | false => simp
  | true => simp [Viewport.reset, Viewport.ofSize, Viewport.isDragging]

/-- **One frame.** Afterwards the view is held if it was, or a lift has left one finger, or the
pointer was pressed, and if moreover nothing has let it go. -/
theorem isDragging_canvas (w : Window α) (area : Area α) (f : CanvasInput α) :
    (w.canvas area f).explorer.viewport.isDragging = true ↔
      (w.explorer.viewport.isDragging = true ∨ f.LeavesOne area w.touches ∨ f.Presses area) ∧
        f.Keeps := by
  rw [canvas_eq, isDragging_keys, isDragging_letGo, isDragging_heard, isDragging_touched, or_assoc,
    and_assoc]
  rfl

/-- **Many frames.** After frames that begin with a free view, it is held if in one of them a lift
has left one finger or the pointer was pressed, and nothing has let it go from that frame on. -/
theorem isDragging_canvasAll {w : Window α} (hfree : w.explorer.viewport.isDragging = false)
    (area : Area α) (frames : List (CanvasInput α)) :
    (w.canvasAll area frames).explorer.viewport.isDragging = true ↔
      ∃ before f after, frames = before ++ f :: after ∧
        (f.LeavesOne area (w.canvasAll area before).touches ∨ f.Presses area) ∧
        ∀ g ∈ f :: after, g.Keeps := by
  -- By the last frame: whatever held the view before, it is kept or let go there.
  induction frames using List.reverseRecOn with
  | nil => simp [canvasAll, hfree]
  | append_singleton frames last ih =>
    have hlast : w.canvasAll area (frames ++ [last]) =
        (w.canvasAll area frames).canvas area last := canvasAll_append w area frames [last]
    rw [hlast, isDragging_canvas, ih]
    constructor
    · rintro ⟨⟨before, f, after, rfl, hholds, hkeeps⟩ | hholds, hlastKeeps⟩
      · refine ⟨before, f, after ++ [last], by simp, hholds, fun g hg => ?_⟩
        rw [← List.cons_append, List.mem_append, List.mem_singleton] at hg
        rcases hg with hg | rfl
        · exact hkeeps g hg
        · exact hlastKeeps
      · refine ⟨frames, last, [], rfl, hholds, fun g hg => ?_⟩
        rw [List.mem_singleton.mp hg]
        exact hlastKeeps
    · rintro ⟨before, f, after, hsplit, hholds, hkeeps⟩
      rcases concat_eq_append_cons.mp hsplit with ⟨rfl, rfl, rfl⟩ | ⟨after, rfl, rfl⟩
      · -- The last frame itself holds the view.
        exact ⟨.inr hholds, hkeeps last List.mem_cons_self⟩
      · -- An earlier frame does, and the last one keeps it.
        rw [← List.cons_append] at hkeeps
        obtain ⟨hframes, hlastKeeps⟩ := List.forall_mem_append.mp hkeeps
        exact ⟨.inl ⟨before, f, after, rfl, hholds, hframes⟩, hlastKeeps last (by simp)⟩

end Window

/-! ### The button -/

namespace CanvasInput

omit [Scalar α]

/-- The button after some frames; `down` says how it was before. -/
def buttonAfter (down : Bool) : List (CanvasInput α) → Bool
  | [] => down
  | f :: fs => buttonAfter f.pointer.down fs

/-- In every frame in which the button goes up, from before or from a press within the frame, it is
reported as let go. -/
def ReportsReleases (down : Bool) : List (CanvasInput α) → Prop
  | [] => True
  | f :: fs =>
    (down = true ∨ f.pointer.pressed = true → f.pointer.down = false → f.pointer.released = true) ∧
      ReportsReleases f.pointer.down fs

/-- What is true of frames is true of their last ones. -/
theorem ReportsReleases.of_append {down : Bool} {fs gs : List (CanvasInput α)}
    (h : ReportsReleases down (fs ++ gs)) : ReportsReleases (buttonAfter down fs) gs := by
  induction fs generalizing down with
  | nil => exact h
  | cons f fs ih => exact ih h.2

/-- The button after some frames and some more. -/
theorem buttonAfter_append (down : Bool) (fs gs : List (CanvasInput α)) :
    buttonAfter down (fs ++ gs) = buttonAfter (buttonAfter down fs) gs := by
  induction fs generalizing down with
  | nil => rfl
  | cons f fs ih => exact ih _

/-- A button that is down stays down until it is reported as let go. -/
theorem ReportsReleases.buttonAfter_eq_true {fs : List (CanvasInput α)}
    (h : ReportsReleases true fs) (hkept : ∀ f ∈ fs, f.pointer.released = false) :
    buttonAfter true fs = true := by
  induction fs with
  | nil => rfl
  | cons f fs ih =>
    obtain ⟨hf, hfs⟩ := List.forall_mem_cons.mp hkept
    obtain ⟨hreport, hrest⟩ := h
    show buttonAfter f.pointer.down fs = true
    cases hdown : f.pointer.down with
    | false => exact absurd (hreport (.inl rfl) hdown) (by simp [hf])
    | true => exact ih (hdown ▸ hrest) hfs

/-- So is one that is pressed. -/
theorem ReportsReleases.buttonAfter_of_pressed {down : Bool} {f : CanvasInput α}
    {fs : List (CanvasInput α)} (h : ReportsReleases down (f :: fs))
    (hpressed : f.pointer.pressed = true) (hkept : ∀ g ∈ f :: fs, g.pointer.released = false) :
    buttonAfter down (f :: fs) = true := by
  have htrue : ReportsReleases true (f :: fs) := ⟨fun _ => h.1 (.inr hpressed), h.2⟩
  exact htrue.buttonAfter_eq_true hkept

end CanvasInput

namespace Pointer

/-- A button that has gone up, from `down` at first or from a press since, is reported as let go. -/
def Reports (down : Bool) (state : Pointer α × Sample α) : Prop :=
  down = true ∨ state.2.pressed = true → state.1.isDown = false → state.2.released = true

namespace Reports

variable {down : Bool} {state : Pointer α × Sample α}

/-- One more event keeps the promise. -/
theorem hear (h : Reports down state) (e : PointerEvent α) : Reports down (hear state e) := by
  cases e with
  | move p => exact h
  | leave => exact h
  | scroll delta => exact h
  | press p isFirst =>
    -- The button is up after it only if this was another button.
    intro hdown hup
    obtain ⟨hbefore, rfl⟩ := Bool.or_eq_false_iff.mp hup
    refine h ?_ hbefore
    simpa [Pointer.hear] using hdown
  | release p isFirst =>
    intro hdown hup
    cases isFirst with
    | true => exact Bool.or_true _
    | false =>
      have hbefore : state.1.isDown = false := by simpa [Pointer.hear] using hup
      simpa [Pointer.hear] using h hdown hbefore

/-- So do all events of a frame. -/
theorem hearAll (h : Reports down state) (es : List (PointerEvent α)) :
    Reports down (es.foldl Pointer.hear state) := by
  induction es generalizing state with
  | nil => exact h
  | cons e es ih => exact ih (h.hear e)

end Reports

/-- So it is in every sample. -/
theorem reports_sample (before : Pointer α) (es : List (PointerEvent α)) :
    Reports before.isDown ((before.sample es).2, (before.sample es).1) := by
  have hnew : Reports before.isDown
      (before, ⟨0, false, false, before.isDown, false, before.latest⟩) := by
    -- Nothing is pressed at first, and the button is not both down and up.
    rintro (hdown | hpressed) hup
    · cases hdown.symm.trans hup
    · cases hpressed
  exact hnew.hearAll es

end Pointer

namespace CanvasInput

/-- The frames that are gathered from the events of each, from a pointer on. -/
def gatherAll (before : Pointer α) (hearsKeys : Bool) :
    List (List (CanvasEvent α)) → List (CanvasInput α)
  | [] => []
  | es :: rest =>
    (gather before hearsKeys es).1 :: gatherAll (gather before hearsKeys es).2 hearsKeys rest

/-- Gathered frames report every release. -/
theorem reportsReleases_gatherAll (before : Pointer α) (hearsKeys : Bool)
    (events : List (List (CanvasEvent α))) :
    ReportsReleases before.isDown (gatherAll before hearsKeys events) := by
  induction events generalizing before with
  | nil => trivial
  | cons es rest ih =>
    have hdown : (gather before hearsKeys es).2.isDown =
        (gather before hearsKeys es).1.pointer.down := rfl
    have hrest := ih (gather before hearsKeys es).2
    rw [hdown] at hrest
    exact ⟨before.reports_sample (es.filterMap CanvasEvent.pointer?), hrest⟩

end CanvasInput

/-! ### A fresh window -/

namespace Explorer

/-- Loading a preset does not take hold of the view. -/
theorem held_load {e : Explorer α} (h : e.viewport.held = none) (key : String) :
    (e.load key).2.viewport.held = none := by
  unfold load
  split
  · exact h
  · rfl

end Explorer

namespace Window

/-- In a new window the view is free. -/
theorem isDragging_start (s : Settings α) (outputFolder : List Char) (d : Directory) :
    (start s outputFolder d).explorer.viewport.isDragging = false := by
  have hheld : (firstView s).viewport.held = none := by
    unfold firstView
    dsimp only
    -- A first preset, if there is one, has just been loaded.
    split
    · rfl
    · exact Explorer.held_load rfl _
  show (firstView s).viewport.held.isSome = false
  rw [hheld]
  rfl

/-- A lift has left one finger of two, and nothing has let the view go since, in that frame or a
later one. -/
def Stray (area : Area α) (w : Window α) (frames : List (CanvasInput α)) : Prop :=
  ∃ before f after, frames = before ++ f :: after ∧
    f.LeavesOne area (w.canvasAll area before).touches ∧ ∀ g ∈ f :: after, g.Keeps

/-- **What holds a view without the button.** Let a new window hear frames that report every release
of the button.  If the button is up after the last of them, the view is held exactly if a lift has
left one finger of two in some frame, and neither a release of the button nor a reset of the view
has come in that frame or after it. -/
theorem isDragging_iff_stray (s : Settings α) (outputFolder : List Char) (d : Directory)
    (area : Area α) (frames : List (CanvasInput α))
    (hreports : CanvasInput.ReportsReleases false frames)
    (hup : CanvasInput.buttonAfter false frames = false) :
    ((start s outputFolder d).canvasAll area frames).explorer.viewport.isDragging = true ↔
      Stray area (start s outputFolder d) frames := by
  rw [isDragging_canvasAll (isDragging_start s outputFolder d)]
  constructor
  · rintro ⟨before, f, after, rfl, hholds | hpress, hkeeps⟩
    · exact ⟨before, f, after, rfl, hholds, hkeeps⟩
    · -- A press that nothing has let go since is still down at the end.
      rw [CanvasInput.buttonAfter_append] at hup
      have hdown := hreports.of_append.buttonAfter_of_pressed hpress.1 fun g hg => (hkeeps g hg).1
      rw [hup] at hdown
      cases hdown
  · rintro ⟨before, f, after, rfl, hholds, hkeeps⟩
    exact ⟨before, f, after, rfl, .inl hholds, hkeeps⟩

/-- Two fingers, the first of which is the pointer and is lifted last: its release lets the view
go. -/
theorem isDragging_iff_stray_of_two_fingers :
    let w := start (Settings.default : Settings Float) [] (.empty [])
    let frames : List (CanvasInput Float) := CanvasInput.gatherAll Pointer.unknown true
      [[.touch ⟨1, .start, ⟨40, 50⟩⟩, .pointer (.press ⟨40, 50⟩ true)],
        [.touch ⟨2, .start, ⟨60, 50⟩⟩],
        [.touch ⟨2, .finish, ⟨60, 50⟩⟩],
        [.touch ⟨1, .finish, ⟨40, 50⟩⟩, .pointer (.release ⟨40, 50⟩ true), .pointer .leave]]
    CanvasInput.ReportsReleases false frames ∧ CanvasInput.buttonAfter false frames = false ∧
      ((w.canvasAll ⟨0, 100, 100⟩ frames).explorer.viewport.isDragging = true ↔
        Stray ⟨0, 100, 100⟩ w frames) := by
  intro w frames
  -- Frames gathered from the pointer's own events report every release of its button.
  have hreports : CanvasInput.ReportsReleases false frames :=
    CanvasInput.reportsReleases_gatherAll Pointer.unknown true _
  have hup : CanvasInput.buttonAfter false frames = false := by decide +kernel
  unfold w
  exact ⟨hreports, hup, isDragging_iff_stray _ _ _ _ frames hreports hup⟩

/-- **A view held by nothing.** Three fingers come, and the first is the pointer.  They are lifted in
the order in which they came: the lift of the second leaves the third, and the view is held from
then on.  When the third is lifted no finger is down and the button is up, but the view is still
held. -/
theorem isDragging_without_pointer :
    let w := start (Settings.default : Settings Float) [] (.empty [])
    let frames : List (CanvasInput Float) := CanvasInput.gatherAll Pointer.unknown true
      [[.touch ⟨1, .start, ⟨20, 50⟩⟩, .pointer (.press ⟨20, 50⟩ true)],
        [.touch ⟨2, .start, ⟨50, 50⟩⟩],
        [.touch ⟨3, .start, ⟨80, 50⟩⟩],
        [.touch ⟨1, .finish, ⟨20, 50⟩⟩, .pointer (.release ⟨20, 50⟩ true), .pointer .leave],
        [.touch ⟨2, .finish, ⟨50, 50⟩⟩],
        [.touch ⟨3, .finish, ⟨80, 50⟩⟩]]
    CanvasInput.ReportsReleases false frames ∧ CanvasInput.buttonAfter false frames = false ∧
      (w.canvasAll ⟨0, 100, 100⟩ frames).touches.count = 0 ∧
      (w.canvasAll ⟨0, 100, 100⟩ frames).explorer.viewport.isDragging = true := by
  intro w frames
  -- The third finger keeps the pinch from ending when the first goes up with the button.
  have hreports : CanvasInput.ReportsReleases false frames :=
    CanvasInput.reportsReleases_gatherAll Pointer.unknown true _
  exact ⟨hreports, by decide +kernel, by decide +kernel, by decide +kernel⟩

end Window

end TurtleCurves
