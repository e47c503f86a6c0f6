import TurtleCurves.Proofs.Latest
import TurtleCurves.View.Viewport

namespace TurtleCurves

/-!
# What letting go means

A pointer that is let go was a tap, a drag or nothing at all.  Which of them it is hangs on a part
of the view's history only: on the latest operation that settles whether a pointer is held, and on
whether the pointer has been marked as moved since.

* `Viewport.Gesture.settles`, `frees`, `marks` — a press, a release, the end of a pinch and a reset
  settle it; some of them leave no pointer held; a move and the start of a pinch mark a held one;
* `Release.after` — the state machine: what letting go would mean, from one operation to the next;
* `Viewport.release_perform`, `Viewport.release_performAll` — every view runs it;
* `Viewport.release_of_latest` — the machine in terms of the history;
* `Viewport.release_eq_iff`, and `release_eq_idle_iff`, `release_eq_tap_iff`, `release_eq_drag_iff`
  for the three meanings — hence when letting go means what.
-/

variable {α : Type}

/-! ### Three kinds of operations -/

namespace Viewport.Gesture

/-- The operation settles whether a pointer is held. -/
def settles : Gesture α → Bool
  | .panStart _ | .panEnd | .pinchEnd _ | .reset => true
  | _ => false

/-- The operation leaves no pointer held. -/
def frees : Gesture α → Bool
  | .panEnd | .pinchEnd none | .reset => true
  | _ => false

/-- The operation marks a held pointer as moved. -/
def marks : Gesture α → Bool
  | .panMove _ | .pinchStart _ _ => true
  | _ => false

end Viewport.Gesture

/-! ### The machine -/

namespace Release

/-- What letting go would mean if the pointer were marked as moved. -/
def moved : Release → Release
  | .tap | .drag => .drag
  | .idle => .idle

/-- What letting go would mean after an operation. -/
def after (r : Release) : Viewport.Gesture α → Release
  | .panStart _ => .tap
  | .panEnd | .pinchEnd none | .reset => .idle
  | .pinchEnd (some _) => .drag
  | .panMove _ | .pinchStart _ _ => r.moved
  | .zoom _ _ | .wheel _ _ | .pinchMove _ _ | .resize _ _ => r

/-- What has moved is no tap. -/
theorem moved_ne_tap (r : Release) : r.moved ≠ .tap := by
  cases r <;> simp [moved]

/-- Only a press makes a tap. -/
theorem after_ne_tap {r : Release} (hr : r ≠ .tap) {g : Viewport.Gesture α}
    (hg : ∀ p, g ≠ .panStart p) : r.after g ≠ .tap := by
  cases g with
  | panStart p => exact absurd rfl (hg p)
  | panMove | pinchStart => exact moved_ne_tap r
  | pinchEnd remaining => cases remaining <;> simp [after]
  | panEnd | reset => simp [after]
  | zoom | wheel | pinchMove | resize => exact hr

/-- An operation that settles nothing marks a held pointer or leaves it. -/
theorem after_of_not_settles {g : Viewport.Gesture α} (h : ¬ g.settles) (r : Release) :
    r.after g = if g.marks then r.moved else r := by
  cases g with
  | panStart | panEnd | pinchEnd | reset => exact absurd rfl h
  | panMove | pinchStart | zoom | wheel | pinchMove | resize => rfl

@[simp] theorem moved_moved (r : Release) : r.moved.moved = r.moved := by
  cases r <;> rfl

/-- So do several of them. -/
theorem foldl_after {gs : List (Viewport.Gesture α)} (h : ∀ g ∈ gs, ¬ g.settles) (r : Release) :
    gs.foldl after r = if gs.any Viewport.Gesture.marks then r.moved else r := by
  induction gs generalizing r with
  | nil => rfl
  | cons g gs ih =>
    obtain ⟨hg, hgs⟩ := List.forall_mem_cons.mp h
    rw [List.foldl_cons, ih hgs, after_of_not_settles hg, List.any_cons]
    -- The first operation marks or not; what the others do is known by induction.
    cases g.marks <;> simp

end Release

namespace Viewport

/-! ### Views run it -/

/-- What letting go means is read off the grip. -/
theorem release_congr {v w : Viewport α} (h : w.held = v.held) : w.release = v.release := by
  rw [release, release, h]

theorem release_of_none {v : Viewport α} (h : v.held = none) : v.release = .idle := by
  rw [release, h]

/-- A grip is a tap until it is marked. -/
theorem release_of_some {v : Viewport α} {d : Drag α} (h : v.held = some d) :
    v.release = if d.moved then .drag else .tap := by
  rw [release, h]

/-- Once the pointer is marked, letting it go is a drag or nothing. -/
theorem release_of_map {v w : Viewport α}
    (h : w.held = v.held.map fun d => { d with moved := true }) : w.release = v.release.moved := by
  cases hheld : v.held with
  | none =>
    rw [hheld] at h
    rw [release_of_none h, release_of_none hheld]
    rfl
  | some d =>
    rw [hheld] at h
    rw [release_of_some h, release_of_some hheld]
    -- A mark that is there already changes nothing.
    cases d.moved <;> rfl

variable [Scalar α]

/-- The wheel does not touch the grip. -/
theorem held_wheel (v : Viewport α) (anchor : Point α) (delta : α) :
    (v.wheel anchor delta).held = v.held := by
  unfold wheel
  split <;> rfl

/-- Nor does a pinch that goes on. -/
theorem held_pinchMove (v : Viewport α) (a b : Point α) : (v.pinchMove a b).held = v.held := by
  show Viewport.held (if (0 : α) < v.span then v.zoom (a.midpoint b) (a.distance b / v.span)
    else v) = v.held
  split <;> rfl

/-- A move marks the grip. -/
theorem held_panMove (v : Viewport α) (p : Point α) :
    (v.panMove p).held = v.held.map fun d => { d with moved := true } := by
  cases hheld : v.held with
  | none =>
    simp only [panMove, hheld]
    rfl
  | some d =>
    simp only [panMove, hheld]
    rfl

/-- **One operation.** -/
theorem release_perform (v : Viewport α) (g : Gesture α) :
    (v.perform g).release = v.release.after g := by
  cases g with
  | zoom anchor factor => exact release_congr rfl
  | wheel anchor delta => exact release_congr (held_wheel v anchor delta)
  | panStart p => rfl
  | panMove p => exact release_of_map (held_panMove v p)
  | panEnd => rfl
  | pinchStart a b => exact release_of_map rfl
  | pinchMove a b => exact release_congr (held_pinchMove v a b)
  | pinchEnd remaining => cases remaining <;> rfl
  | resize width height => exact release_congr rfl
  | reset => rfl

/-- **Many operations.** -/
theorem release_performAll (v : Viewport α) (gs : List (Gesture α)) :
    (v.performAll gs).release = gs.foldl Release.after v.release := by
  induction gs generalizing v with
  | nil => rfl
  | cons g gs ih =>
    rw [List.foldl_cons, ← release_perform]
    exact ih (v.perform g)

/-! ### Histories -/

/-- What letting go means when `g` was the latest operation to settle it and `after` has come
since. -/
def Gesture.leads (g : Gesture α) (after : List (Gesture α)) : Release :=
  match g with
  | .panStart _ => if after.any marks then .drag else .tap
  | .pinchEnd (some _) => .drag
  | _ => .idle

namespace Gesture

variable {g : Gesture α} {after : List (Gesture α)}

omit [Scalar α]

/-- The operation leaves nothing to let go exactly if it frees the pointer. -/
theorem leads_eq_idle_iff (h : g.settles = true) : g.leads after = .idle ↔ g.frees = true := by
  cases g with
  | panEnd | reset => exact iff_of_true rfl rfl
  | panStart p => exact iff_of_false (by simp only [leads]; split <;> simp) Bool.false_ne_true
  | pinchEnd remaining => cases remaining <;> simp [leads, frees]
  | zoom | wheel | panMove | pinchStart | pinchMove | resize => cases h

/-- It leads to a tap exactly if it is a press, and nothing has marked it since. -/
theorem leads_eq_tap_iff :
    g.leads after = .tap ↔ ∃ p, g = .panStart p ∧ ∀ m ∈ after, ¬ m.marks := by
  cases g with
  | panStart p => simp [leads]
  | pinchEnd remaining => cases remaining <;> simp [leads]
  | panEnd | reset | zoom | wheel | panMove | pinchStart | pinchMove | resize => simp [leads]

/-- It leads to a drag exactly if it is a marked press, or the end of a pinch with a finger left. -/
theorem leads_eq_drag_iff :
    g.leads after = .drag ↔
      (∃ p, g = .panStart p ∧ ∃ m ∈ after, m.marks = true) ∨ ∃ p, g = .pinchEnd (some p) := by
  cases g with
  | panStart p => simp [leads]
  | pinchEnd remaining => cases remaining <;> simp [leads]
  | panEnd | reset | zoom | wheel | panMove | pinchStart | pinchMove | resize => simp [leads]

end Gesture

/-- **The latest operation that settles it** says what letting go means, whatever the view was
before. -/
theorem release_of_latest (v : Viewport α) {gs : List (Gesture α)} {g : Gesture α}
    {after : List (Gesture α)} (h : Latest (·.settles = true) gs g after) :
    (v.performAll gs).release = g.leads after := by
  obtain ⟨hg, hafter, before, rfl⟩ := h
  rw [release_performAll, List.foldl_append, List.foldl_cons, Release.foldl_after hafter]
  -- The operations before the latest one do not matter.
  generalize before.foldl Release.after v.release = r
  cases g with
  | panStart p => rfl
  | panEnd => exact ite_self _
  | reset => exact ite_self _
  | pinchEnd remaining => cases remaining <;> exact ite_self _
  | zoom | wheel | panMove | pinchStart | pinchMove | resize => exact absurd hg Bool.false_ne_true

/-- Without such an operation there is nothing to let go. -/
theorem release_of_unsettled {v : Viewport α} (hidle : v.release = .idle) {gs : List (Gesture α)}
    (h : ∀ g ∈ gs, ¬ g.settles) : (v.performAll gs).release = .idle := by
  rw [release_performAll, Release.foldl_after h, hidle]
  exact ite_self _

section Meaning

variable {v : Viewport α} (hidle : v.release = .idle) {gs : List (Gesture α)}

include hidle

/-- **What letting go means** is said by the history. -/
theorem release_eq_iff {r : Release} :
    (v.performAll gs).release = r ↔
      (r = .idle ∧ ∀ g ∈ gs, ¬ g.settles) ∨
        ∃ g after, Latest (·.settles = true) gs g after ∧ g.leads after = r := by
  constructor
  · rintro rfl
    rcases exists_latest (·.settles = true) gs with hnone | ⟨g, after, hlatest⟩
    · exact .inl ⟨release_of_unsettled hidle hnone, hnone⟩
    · exact .inr ⟨g, after, hlatest, (release_of_latest v hlatest).symm⟩
  · rintro (⟨rfl, hnone⟩ | ⟨g, after, hlatest, rfl⟩)
    · exact release_of_unsettled hidle hnone
    · exact release_of_latest v hlatest

/-- Nothing: no pointer is held. -/
theorem release_eq_idle_iff :
    (v.performAll gs).release = .idle ↔
      (∀ g ∈ gs, ¬ g.settles) ∨
        ∃ g after, Latest (·.settles = true) gs g after ∧ g.frees = true := by
  rw [release_eq_iff hidle, and_iff_right rfl]
  refine or_congr_right (exists_congr fun g => exists_congr fun after => ?_)
  exact and_congr_right fun hlatest => Gesture.leads_eq_idle_iff hlatest.holds

/-- A tap: a press has not been marked. -/
theorem release_eq_tap_iff :
    (v.performAll gs).release = .tap ↔
      ∃ p after, Latest (·.settles = true) gs (.panStart p) after ∧ ∀ g ∈ after, ¬ g.marks := by
  simp only [release_eq_iff hidle, Gesture.leads_eq_tap_iff, reduceCtorEq, false_and, false_or]
  constructor
  · rintro ⟨_, after, hlatest, p, rfl, hmarks⟩
    exact ⟨p, after, hlatest, hmarks⟩
  · rintro ⟨p, after, hlatest, hmarks⟩
    exact ⟨_, after, hlatest, p, rfl, hmarks⟩

/-- A drag: a press has been marked, or a finger of a pinch goes on as a pointer. -/
theorem release_eq_drag_iff :
    (v.performAll gs).release = .drag ↔
      (∃ p after, Latest (·.settles = true) gs (.panStart p) after ∧ ∃ g ∈ after, g.marks = true) ∨
        ∃ p after, Latest (·.settles = true) gs (.pinchEnd (some p)) after := by
  simp only [release_eq_iff hidle, Gesture.leads_eq_drag_iff, reduceCtorEq, false_and, false_or]
  constructor
  · rintro ⟨_, after, hlatest, ⟨p, rfl, hmarks⟩ | ⟨p, rfl⟩⟩
    · exact .inl ⟨p, after, hlatest, hmarks⟩
    · exact .inr ⟨p, after, hlatest⟩
  · rintro (⟨p, after, hlatest, hmarks⟩ | ⟨p, after, hlatest⟩)
    · exact ⟨_, after, hlatest, .inl ⟨p, rfl, hmarks⟩⟩
    · exact ⟨_, after, hlatest, .inr ⟨p, rfl⟩⟩

end Meaning

end Viewport

end TurtleCurves
