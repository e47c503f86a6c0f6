import TurtleCurves.Proofs.Explorer.Release
import TurtleCurves.Proofs.Window.Fingers

namespace TurtleCurves

/-!
# Two fingers are no tap

A press that is let go without having moved is a tap, and a tap grows the word.  A second finger
takes that meaning from the press, and so does a finger that is lifted while another stays; both
only if the press has been heard of before.  Within a frame the touches come before the pointer,
so that a press in the frame of a pinch begins anew.

* `Viewport.NoTap` — letting the pointer go would be no tap;
* `NoTap.perform` — no operation but a press makes it one;
* `Window.heard`, `Window.canvas_eq` — a frame up to the moment at which the pointer is let go, and
  after it;
* `Window.noTap_heard`, `Window.noTap_canvas` — what one frame without a press keeps;
* `Window.Pairs` — a second finger comes, or one of two goes, in some frame of a list;
* `Window.release_ne_tap_of_pairs` — a pinch that begins or ends in a frame after the press is no
  tap;
* `Window.tap_within_frame` — one that begins and ends in the frame of the press can be one.
-/

variable {α : Type}

/-! ### Presses that are no taps -/

namespace Viewport

/-- Letting the pointer go would be no tap. -/
def NoTap (v : Viewport α) : Prop := v.release ≠ .tap

/-- Only the press counts. -/
theorem NoTap.congr {v w : Viewport α} (h : v.NoTap) (hheld : w.held = v.held) : w.NoTap := by
  rw [NoTap, release_congr hheld]
  exact h

theorem noTap_of_held_eq_none {v : Viewport α} (h : v.held = none) : v.NoTap := by
  rw [NoTap, release_of_none h]
  exact Release.noConfusion

variable [Scalar α]

/-- A second finger takes the tap from a press. -/
theorem noTap_pinchStart (v : Viewport α) (a b : Point α) : (v.pinchStart a b).NoTap := by
  show (v.perform (.pinchStart a b)).release ≠ .tap
  rw [release_perform]
  exact Release.moved_ne_tap v.release

/-- So does a finger that is lifted from two. -/
theorem noTap_pinchEnd (v : Viewport α) (remaining : Option (Point α)) :
    (v.pinchEnd remaining).NoTap := by
  show (v.perform (.pinchEnd remaining)).release ≠ .tap
  rw [release_perform]
  cases remaining <;> exact Release.noConfusion

/-- **One operation.** Only a press can be let go as a tap. -/
theorem NoTap.perform {v : Viewport α} (h : v.NoTap) {g : Gesture α}
    (hg : ∀ p, g ≠ .panStart p) : (v.perform g).NoTap := by
  rw [NoTap, release_perform]
  exact Release.after_ne_tap h hg

/-- A touch is no press. -/
theorem NoTap.pinch {v : Viewport α} (h : v.NoTap) (p : Option (Pinch α)) : (v.pinch p).NoTap := by
  cases p with
  | none => exact h
  | some p => exact h.perform fun q hq => by cases p <;> cases hq

/-- Nor are many. -/
theorem NoTap.touchAll {v : Viewport α} (h : v.NoTap) (t : Touches α) (es : List (TouchEvent α)) :
    (v.touchAll t es).NoTap := by
  induction es generalizing v t with
  | nil => exact h
  | cons e es ih => exact ih (h.pinch _) _

/-- A second finger that comes, or one of two that goes, takes the tap from a press. -/
theorem noTap_pinch_of_pair (v : Viewport α) {t : Touches α} {e : TouchEvent α}
    (h : t.BeginsPair e ∨ t.EndsPair e) : (v.pinch (t.update e).1).NoTap := by
  rcases h with hbegin | hend
  · obtain ⟨a, b, hp⟩ := Touches.update_of_beginsPair hbegin
    rw [hp]
    exact noTap_pinchStart v a b
  · obtain ⟨remaining, hp⟩ := Touches.update_of_endsPair hend
    rw [hp]
    exact noTap_pinchEnd v remaining

end Viewport

/-! ### Letting go -/

namespace Explorer

/-- After the pointer is let go nothing is held. -/
theorem held_release (e : Explorer α) : e.release.2.viewport.held = none := by
  rcases e.release_cases with h | h
  · rw [h]
    rfl
  · rw [h, viewport_grow]
    rfl

/-- Letting go what is no tap leaves the word alone. -/
theorem derivation_release {e : Explorer α} (h : e.viewport.NoTap) :
    e.release.2.derivation = e.derivation := by
  rw [release_of_other fun hboth => h hboth.1]
  rfl

end Explorer

/-! ### Frames -/

variable [Scalar α]

/-- The pointer is pressed on the canvas in this frame. -/
def CanvasInput.Presses (area : Area α) (f : CanvasInput α) : Prop :=
  f.pointer.pressed = true ∧ ∃ p, f.pointer.position = some p ∧ area.contains p = true

theorem Window.canvasAll_append (w : Window α) (area : Area α) (fs gs : List (CanvasInput α)) :
    w.canvasAll area (fs ++ gs) = (w.canvasAll area fs).canvasAll area gs := List.foldl_append

/-- In this frame a second finger comes, or one of two goes; `t` are the fingers before it. -/
def CanvasInput.Pairs (area : Area α) (t : Touches α) (f : CanvasInput α) : Prop :=
  ∃ before e after, f.touches.map (·.within area) = before ++ e :: after ∧
    ((t.updateAll before).BeginsPair e ∨ (t.updateAll before).EndsPair e)

namespace Window

/-- The window after the touches of a frame. -/
def touched (w : Window α) (area : Area α) (f : CanvasInput α) : Window α :=
  f.touches.foldl (touch area) (w.gesture (.resize area.width area.height))

/-- The window in a frame at the moment at which the pointer may be let go. -/
def heard (w : Window α) (area : Area α) (f : CanvasInput α) : Window α :=
  match f.pointer.position with
  | none => w.touched area f
  | some p => drag area (wheel area (w.touched area f) p f.pointer) p f.pointer

/-- A frame is what is heard, then the pointer let go, then the keys. -/
theorem canvas_eq (w : Window α) (area : Area α) (f : CanvasInput α) :
    w.canvas area f = ((w.heard area f).letGo f.pointer).keys f.keys := by
  unfold canvas point heard touched
  cases f.pointer.position with
  | none => rfl
  | some p => rfl

/-- The view after the touches of a frame, which begins by being resized. -/
theorem viewport_touched (w : Window α) (area : Area α) (f : CanvasInput α) :
    (w.touched area f).explorer.viewport =
      (w.explorer.viewport.resize area.width area.height).touchAll w.touches
        (f.touches.map (·.within area)) := viewport_foldl_touch _ _ _

/-- In a frame without a press a tap can only come from before its pointer is looked at. -/
theorem noTap_heard {w : Window α} {area : Area α} {f : CanvasInput α}
    (h : (w.touched area f).explorer.viewport.NoTap) (hpress : ¬ f.Presses area) :
    (w.heard area f).explorer.viewport.NoTap := by
  unfold heard
  cases hp : f.pointer.position with
  | none => exact h
  | some p =>
    have hwheel : (wheel area (w.touched area f) p f.pointer).explorer.viewport.NoTap := by
      unfold wheel
      split
      · exact h.perform fun _ hq => by cases hq
      · exact h
    have hnot : ¬ (f.pointer.pressed && area.contains p) = true := fun hboth => by
      rw [Bool.and_eq_true] at hboth
      exact hpress ⟨hboth.1, p, hp, hboth.2⟩
    -- Without a press the pointer moves, or does nothing.
    simp only [drag, if_neg hnot]
    split
    · exact hwheel.perform fun _ hq => by cases hq
    · exact hwheel

/-- Letting go makes no tap. -/
theorem noTap_letGo {w : Window α} (h : w.explorer.viewport.NoTap) (s : Sample α) :
    (w.letGo s).explorer.viewport.NoTap := by
  unfold letGo
  split
  · exact Viewport.noTap_of_held_eq_none (Explorer.held_release w.explorer)
  · exact h

/-- The keys leave the view as it is, or reset it. -/
theorem viewport_keys (w : Window α) (ks : Keys) :
    (w.keys ks).explorer.viewport =
      if ks.home then w.explorer.viewport.reset else w.explorer.viewport := by
  have hgrow : (if ks.space then w.report w.explorer.grow else w).explorer.viewport =
      w.explorer.viewport := by
    split
    · exact Explorer.viewport_grow w.explorer
    · rfl
  unfold keys
  -- The keys act one after the other; of the growth only the view it leaves matters below.
  generalize (if ks.space then w.report w.explorer.grow else w) = w' at hgrow
  have hrewind : (if ks.letterR then w'.report w'.explorer.rewind else w').explorer.viewport =
      w.explorer.viewport := by
    split
    · exact (Explorer.viewport_rewind w'.explorer).trans hgrow
    · exact hgrow
  dsimp only
  split
  · exact congrArg Viewport.reset hrewind
  · exact hrewind

/-- Nor do the keys. -/
theorem noTap_keys {w : Window α} (h : w.explorer.viewport.NoTap) (ks : Keys) :
    (w.keys ks).explorer.viewport.NoTap := by
  rw [viewport_keys]
  split
  · exact Viewport.noTap_of_held_eq_none rfl
  · exact h

/-- **One frame.** A press that is no tap stays none in a frame without another press. -/
theorem noTap_canvas {w : Window α} {area : Area α} {f : CanvasInput α}
    (h : (w.heard area f).explorer.viewport.NoTap) : (w.canvas area f).explorer.viewport.NoTap := by
  rw [canvas_eq]
  exact noTap_keys (noTap_letGo h _) _

/-- The touches of a frame leave a press that is no tap, and make one if a pinch begins or ends
among them. -/
theorem noTap_touched {w : Window α} {area : Area α} {f : CanvasInput α}
    (h : w.explorer.viewport.NoTap ∨ f.Pairs area w.touches) :
    (w.touched area f).explorer.viewport.NoTap := by
  rw [viewport_touched]
  -- A press that was no tap stays none; a pinch makes it none, and the touches behind that one keep
  -- it.
  rcases h with h | ⟨before, e, after, hsplit, hpair⟩
  · have hresized : (w.explorer.viewport.resize area.width area.height).NoTap := h.congr rfl
    exact hresized.touchAll _ _
  · rw [hsplit, Viewport.touchAll_append]
    exact (Viewport.noTap_pinch_of_pair _ hpair).touchAll _ _

/-- In some frame of a list a second finger comes, or one of two goes. -/
def Pairs (area : Area α) (w : Window α) (frames : List (CanvasInput α)) : Prop :=
  ∃ before f after, frames = before ++ f :: after ∧
    f.Pairs area (w.canvasAll area before).touches

/-- **Frames without a press.** A press that is no tap stays none. -/
theorem noTap_canvasAll {w : Window α} {area : Area α} {frames : List (CanvasInput α)}
    (h : w.explorer.viewport.NoTap) (hpress : ∀ f ∈ frames, ¬ f.Presses area) :
    (w.canvasAll area frames).explorer.viewport.NoTap := by
  induction frames generalizing w with
  | nil => exact h
  | cons f frames ih =>
    obtain ⟨hf, hframes⟩ := List.forall_mem_cons.mp hpress
    exact ih (noTap_canvas (noTap_heard (noTap_touched (.inl h)) hf)) hframes

/-- **A gesture of two fingers is no tap.** From a window in which the pointer may be pressed, let
frames follow without another press, in one of which a second finger comes or one of two goes.  If
the pointer is let go in the last of them, that is no tap, and it leaves the word alone. -/
theorem release_ne_tap_of_pairs (w : Window α) (area : Area α) (frames : List (CanvasInput α))
    (last : CanvasInput α) (hpress : ∀ f ∈ frames ++ [last], ¬ f.Presses area)
    (hpairs : Pairs area w (frames ++ [last])) :
    ((w.canvasAll area frames).heard area last).explorer.viewport.release ≠ .tap ∧
      (((w.canvasAll area frames).heard area last).letGo last.pointer).explorer.derivation =
        ((w.canvasAll area frames).heard area last).explorer.derivation := by
  have hlast : ¬ last.Presses area := hpress last (by simp)
  have hnotap : ((w.canvasAll area frames).heard area last).explorer.viewport.NoTap := by
    refine noTap_heard (noTap_touched ?_) hlast
    obtain ⟨before, f, after, hsplit, hpair⟩ := hpairs
    rcases List.eq_nil_or_concat after with rfl | ⟨after, g, rfl⟩
    · -- The pinch begins or ends in the last frame itself.
      obtain ⟨rfl, hlf⟩ := List.append_inj' hsplit rfl
      obtain rfl := List.singleton_inj.mp hlf
      exact .inr hpair
    · -- It does so before, and the frames after it keep that.
      refine .inl ?_
      have hframes : frames = before ++ f :: after := by
        rw [List.concat_eq_append, ← List.cons_append, ← List.append_assoc] at hsplit
        exact (List.append_inj' hsplit rfl).1
      have hquiet : ∀ g ∈ f :: after, ¬ g.Presses area := fun g hg =>
        hpress g (by rw [hframes]; simp only [List.mem_append]; exact .inl (.inr hg))
      obtain ⟨hf, hafter⟩ := List.forall_mem_cons.mp hquiet
      have hstart : ((w.canvasAll area before).canvas area f).explorer.viewport.NoTap :=
        noTap_canvas (noTap_heard (noTap_touched (.inr hpair)) hf)
      rw [hframes, canvasAll_append]
      show (((w.canvasAll area before).canvas area f).canvasAll area after).explorer.viewport.NoTap
      exact noTap_canvasAll hstart hafter
  refine ⟨hnotap, ?_⟩
  unfold letGo
  split
  · exact Explorer.derivation_release hnotap
  · rfl

/-- A press of the first finger, a second finger two frames later, and the pointer let go in the
frame in which it is lifted. -/
theorem release_ne_tap_of_late_finger :
    let w := (start (Settings.default : Settings Float) [] (.empty [])).canvas ⟨0, 100, 100⟩
      ⟨[⟨1, .start, ⟨40, 50⟩⟩], ⟨0, true, false, true, false, some ⟨40, 50⟩⟩, .none⟩
    let frames : List (CanvasInput Float) :=
      [⟨[], ⟨0, false, false, true, false, some ⟨40, 50⟩⟩, .none⟩,
        ⟨[⟨2, .start, ⟨60, 50⟩⟩], ⟨0, false, false, true, false, some ⟨40, 50⟩⟩, .none⟩]
    let last : CanvasInput Float :=
      ⟨[⟨1, .finish, ⟨40, 50⟩⟩], ⟨0, false, true, false, false, some ⟨40, 50⟩⟩, .none⟩
    w.explorer.viewport.release = .tap ∧
      (∀ f ∈ frames ++ [last], ¬ f.Presses ⟨0, 100, 100⟩) ∧
      Pairs ⟨0, 100, 100⟩ w (frames ++ [last]) ∧
      ((w.canvasAll ⟨0, 100, 100⟩ frames).heard ⟨0, 100, 100⟩ last).explorer.viewport.release ≠
        .tap ∧
      (((w.canvasAll ⟨0, 100, 100⟩ frames).heard ⟨0, 100, 100⟩ last).letGo
          last.pointer).explorer.derivation =
        ((w.canvasAll ⟨0, 100, 100⟩ frames).heard ⟨0, 100, 100⟩ last).explorer.derivation := by
  intro w frames last
  have hpress : ∀ f ∈ frames ++ [last], ¬ f.Presses ⟨0, 100, 100⟩ := by
    have hpressed : ∀ f ∈ frames ++ [last], f.pointer.pressed = false := by decide +kernel
    intro f hf hp
    exact Bool.false_ne_true ((hpressed f hf).symm.trans hp.1)
  -- The second finger comes down in the last frame before the release.
  have hpairs : Pairs ⟨0, 100, 100⟩ w (frames ++ [last]) :=
    ⟨[_], _, [_], rfl, [], _, [], rfl, .inl ⟨rfl, by decide +kernel⟩⟩
  exact ⟨by decide +kernel, hpress, hpairs, release_ne_tap_of_pairs w _ frames last hpress hpairs⟩

/-- **A pinch within the frame of the press.** Two fingers come and go in the frame in which the
pointer is pressed and let go: that is a tap, and the word grows. -/
theorem tap_within_frame :
    let w := start (Settings.default : Settings Float) [] (.empty [])
    let f : CanvasInput Float :=
      ⟨[⟨1, .start, ⟨40, 50⟩⟩, ⟨2, .start, ⟨60, 50⟩⟩, ⟨2, .finish, ⟨60, 50⟩⟩,
          ⟨1, .finish, ⟨40, 50⟩⟩],
        ⟨0, true, true, false, false, some ⟨40, 50⟩⟩, .none⟩
    f.Presses ⟨0, 100, 100⟩ ∧ f.pointer.released = true ∧ f.Pairs ⟨0, 100, 100⟩ w.touches ∧
      (w.heard ⟨0, 100, 100⟩ f).explorer.viewport.release = .tap ∧
      (w.heard ⟨0, 100, 100⟩ f).explorer.derivation.map Derivation.iteration = some 0 ∧
      ((w.heard ⟨0, 100, 100⟩ f).letGo f.pointer).explorer.derivation.map Derivation.iteration =
        some 1 := by
  refine ⟨⟨rfl, _, rfl, by decide +kernel⟩, rfl, ⟨[_], _, [_, _], rfl, .inl ⟨rfl, ?_⟩⟩, ?_, ?_, ?_⟩
  all_goals decide +kernel

end Window

end TurtleCurves
