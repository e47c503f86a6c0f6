import TurtleCurves.Proofs.Binary64.Integers
import TurtleCurves.Proofs.Color.Gradient
import TurtleCurves.Proofs.Grammar.Answers
import TurtleCurves.Proofs.Turtle.Strokes
import TurtleCurves.Frame.Drawing

namespace TurtleCurves

/-!
# The colours of a frame

A frame sets a colour only where it must: once if it is flat, before each stroke otherwise; and it
measures only what the mode asks for.  The lines come out in the colours that every stroke would
choose for itself, knowing all that can be known about it.

* `Call.lineColors` — the colours of the lines that a list of calls draws;
* `Frame.Inked` — the stroke colour is set as far as the mode needs it, which every action keeps;
* `Frame.resolve_colorsFor` — what a mode does not ask for does not change its colours;
* `Frame.lineColors_draw` — a frame's lines, one for each stroke and each in its colour, and the
  ends of a gradient over them.
-/

/-! ### The stroke colour along a list of calls -/

namespace Call

variable {α : Type}

/-- The stroke colour after a call.  It is not kept and restored with the transforms. -/
def colorAfter (current : Rgb) : Call α → Rgb
  | .color c => c
  | _ => current

/-- The colour of the line that a call draws, if it draws one. -/
def lineColor? (current : Rgb) : Call α → Option Rgb
  | .line _ _ => some current
  | _ => none

/-- The colours of the lines that a list of calls draws; `current` is the stroke colour before. -/
def lineColors (current : Rgb) : List (Call α) → List Rgb
  | [] => []
  | call :: calls =>
    (call.lineColor? current).toList ++ lineColors (call.colorAfter current) calls

theorem lineColors_append (current : Rgb) (cs ds : List (Call α)) :
    lineColors current (cs ++ ds) =
      lineColors current cs ++ lineColors (cs.foldl colorAfter current) ds := by
  induction cs generalizing current with
  | nil => rfl
  | cons call cs ih =>
    simp only [List.cons_append, lineColors, List.foldl_cons, ih, List.append_assoc]

end Call

namespace Frame

variable {α : Type} [Scalar α]

/-! ### From stroke to stroke -/

/-- The stroke colour is set as far as the mode needs it: a flat drawing has its only colour. -/
def Inked (colors : ColorSource α) (current : Rgb) : Prop :=
  colors.mode = .flat → current = colors.palette.get 0

/-- **One action.** A stroke comes out in the colour that it chooses, set just now or long ago, and
the stroke colour stays set. -/
theorem Inked.action {colors : ColorSource α} {current : Rgb} (h : Inked colors current)
    (total : Nat) (length : α) (a : Action α) :
    Call.lineColors current (callsOf colors total length a) =
        a.stroke?.toList.map (fun s => colors.resolve (contextOf total s)) ∧
      Inked colors ((callsOf colors total length a).foldl Call.colorAfter current) := by
  cases a with
  | draw s =>
    by_cases hflat : colors.mode = .flat
    · -- No colour is set here: the one that was set before is the one that is chosen.
      have hcolor : colors.resolve (contextOf total s) = current := by
        rw [ColorSource.resolve, hflat, h hflat]
      simp only [callsOf, if_pos hflat, Action.stroke?, Option.toList_some, List.map_cons, hcolor]
      exact ⟨rfl, h⟩
    · simp only [callsOf, if_neg hflat]
      exact ⟨rfl, fun hmode => absurd hmode hflat⟩
  | turn degrees => exact ⟨rfl, h⟩
  | push => exact ⟨rfl, h⟩
  | pop => exact ⟨rfl, h⟩

/-- **A walk.** -/
theorem Inked.actions {colors : ColorSource α} {current : Rgb} (h : Inked colors current)
    (total : Nat) (length : α) (actions : List (Action α)) :
    Call.lineColors current (actions.flatMap (callsOf colors total length)) =
      (actions.filterMap Action.stroke?).map fun s => colors.resolve (contextOf total s) := by
  induction actions generalizing current with
  | nil => rfl
  | cons a actions ih =>
    obtain ⟨hlines, hinked⟩ := h.action total length a
    rw [List.flatMap_cons, Call.lineColors_append, hlines, ih hinked]
    cases hstroke : a.stroke? with
    | none => simp only [List.filterMap_cons, hstroke]; rfl
    | some s => simp only [List.filterMap_cons, hstroke]; rfl

/-- Nothing is drawn in the opening of a frame, and the stroke colour is set after it. -/
theorem inked_opening (d : Derivation α) (v : Viewport α) (colors : ColorSource α)
    (background : Rgb) (px : α) (prior : Rgb) :
    Call.lineColors prior (opening d v colors background px) = [] ∧
      Inked (colorsFor d colors)
        ((opening d v colors background px).foldl Call.colorAfter prior) := by
  by_cases hflat : colors.mode = .flat
  · simp only [opening, if_pos hflat]
    exact ⟨rfl, fun _ => rfl⟩
  · simp only [opening, if_neg hflat]
    exact ⟨rfl, fun hmode => absurd hmode hflat⟩

/-! ### What a mode asks for -/

/-- The colours of a frame that knows the box of the drawing whatever the mode is. -/
def informed (d : Derivation α) (colors : ColorSource α) : ColorSource α :=
  { colors with bounds := some d.bounds }

/-- The number of strokes and the box are only left out where they are not asked for. -/
theorem resolve_colorsFor (d : Derivation α) (colors : ColorSource α) (s : Stroke α) :
    (colorsFor d colors).resolve (contextOf (totalFor d colors.mode) s) =
      (informed d colors).resolve (contextOf d.segmentCount s) := by
  obtain ⟨mode, axis, palette, symbols, bounds⟩ := colors
  cases mode with
  | flat => rfl
  | paletteGradient => rfl
  | depth => rfl
  | position => rfl
  | perSymbol => rfl

/-! ### Whole frames -/

/-- The lines of a frame have the colours that the strokes of the walk choose. -/
theorem lineColors_draw_eq_map (d : Derivation α) (v : Viewport α) (colors : ColorSource α)
    (background : Rgb) (px : α) (prior : Rgb) :
    Call.lineColors prior (draw d v colors background px) =
      (Walk.strokes d.grammar.gait d.sentence).map fun s =>
        (informed d colors).resolve (contextOf d.segmentCount s) := by
  obtain ⟨hopening, hinked⟩ := inked_opening d v colors background px prior
  have hwalk := hinked.actions (totalFor d colors.mode) d.grammar.length
    (walk d.grammar.gait d.sentence).1
  rw [draw, Call.lineColors_append, hopening, List.nil_append, hwalk, Walk.strokes]
  exact List.map_congr_left fun s _ => resolve_colorsFor d colors s

/-- Each stroke chooses its colour by its place in the walk. -/
theorem lineColors_draw_eq_mapIdx (d : Derivation α) (v : Viewport α) (colors : ColorSource α)
    (background : Rgb) (px : α) (prior : Rgb) :
    Call.lineColors prior (draw d v colors background px) =
      (Walk.strokes d.grammar.gait d.sentence).mapIdx fun k s =>
        (informed d colors).resolve ⟨k, d.segmentCount, s.depth, s.start, s.symbol⟩ := by
  -- A stroke's own number is its place.
  rw [lineColors_draw_eq_map]
  refine List.ext_getElem (by rw [List.length_map, List.length_mapIdx]) fun k hk _ => ?_
  rw [List.length_map] at hk
  rw [List.getElem_map, List.getElem_mapIdx, contextOf, Walk.index_getElem _ _ hk]

/-- Over several strokes a gradient begins with its first stop and ends with its last. -/
theorem gradient_mapIdx (colors : ColorSource α) (hmode : colors.mode = .paletteGradient)
    (strokes : List (Stroke α)) (hmany : 2 ≤ strokes.length) (W : ExactWholes α)
    (hbound : strokes.length ≤ W.bound) (hsize : colors.palette.size ≤ W.bound) :
    let shown := strokes.mapIdx fun k s =>
      colors.resolve ⟨k, strokes.length, s.depth, s.start, s.symbol⟩
    shown.head? = colors.palette.colors.head? ∧
      shown.getLast? = colors.palette.colors.getLast? := by
  intro shown
  -- A gradient asks for nothing but the place of a stroke.
  have hshown {k : Nat} (hk : k < strokes.length) :
      shown[k]? = some (colors.palette.gradient (ColorSource.progress k strokes.length : α)) := by
    rw [List.getElem?_mapIdx, List.getElem?_eq_getElem hk, Option.map_some, ColorSource.resolve,
      hmode]
  constructor
  · rw [List.head?_eq_getElem?, hshown (by omega), Palette.head?_colors,
      Palette.gradient_zero _ W hsize (ColorSource.progress_first W hmany hbound)]
  · have hlast : shown.length - 1 = strokes.length - 1 := by rw [List.length_mapIdx]
    rw [List.getLast?_eq_getElem?, hlast, hshown (by omega), Palette.getLast?_colors,
      Palette.gradient_one _ W hsize (ColorSource.progress_last W hmany hbound)]

/-- **The colours of a frame.** Whatever was asked of a grammar's derivation before, and whatever
the stroke colour was, a frame draws as many lines as the derivation counts strokes, and the line in
each place has the colour that the stroke of the walk in that place chooses knowing its place, the
number of strokes, and the box of the drawing, in every mode.  In a gradient over several strokes
the first line has the first stop and the last line the last one.  Everything is computed with
doubles, which count exactly below `2⁵³`; no memory holds a word or a palette of that length. -/
theorem lineColors_draw (g : Grammar Float) (rs : List Derivation.Request) (v : Viewport Float)
    (colors : ColorSource Float) (background : Rgb) (px : Float) (prior : Rgb) :
    let d := ((Derivation.start g).askAll rs).2
    let shown := Call.lineColors prior (draw d v colors background px)
    shown.length = d.segmentCount ∧
      (shown = (Walk.strokes g.gait d.sentence).mapIdx fun k s =>
        ColorSource.resolve { colors with bounds := some d.bounds }
          ⟨k, d.segmentCount, s.depth, s.start, s.symbol⟩) ∧
      (colors.mode = .paletteGradient → 2 ≤ d.segmentCount →
        d.segmentCount < 2 ^ 53 → colors.palette.size < 2 ^ 53 →
        shown.head? = colors.palette.colors.head? ∧
          shown.getLast? = colors.palette.colors.getLast?) := by
  intro d shown
  have hshows := ((Derivation.Shows.start g).askAll rs).2
  have hshown := lineColors_draw_eq_mapIdx d v colors background px prior
  rw [hshows.grammar] at hshown
  -- The turtle draws as many strokes as were counted on the word, now or earlier.
  have hcount : (Walk.strokes g.gait d.sentence).length = d.segmentCount := by
    rw [Walk.length_strokes, hshows.coherent.segments]
  refine ⟨?_, hshown, ?_⟩
  · rw [← hcount]
    exact (congrArg List.length hshown).trans List.length_mapIdx
  · intro hmode hmany hstrokes hsize
    rw [← hcount] at hmany hstrokes
    have hends := gradient_mapIdx (informed d colors) hmode (Walk.strokes g.gait d.sentence) hmany
      ExactWholes.binary64 (Nat.le_sub_one_of_lt hstrokes) (Nat.le_sub_one_of_lt hsize)
    rw [hcount] at hends
    rw [show shown = _ from hshown]
    exact hends

/-- Two strokes come out in the first and the last colour of the palette that is used when none is
chosen. -/
theorem lineColors_draw_two_strokes :
    let g : Grammar Float := ⟨['F', '+', 'F'], SortedMap.empty, 90, 10, 0, ⟨0, 0⟩⟩
    let colors : ColorSource Float :=
      ⟨.paletteGradient, .horizontal, Palette.default, SortedMap.empty, none⟩
    let shown := Call.lineColors Rgb.black
      (draw (Derivation.start g) (Viewport.ofSize 200 200) colors Rgb.black 1)
    shown.length = 2 ∧ shown.head? = some ⟨0x00, 0x00, 0x00⟩ ∧
      shown.getLast? = some ⟨0x7e, 0xd3, 0x21⟩ := by
  intro g colors shown
  have hcount : (Derivation.start g).segmentCount = 2 := by
    show Word.strokes ['F', '+', 'F'] = 2
    decide
  -- Two strokes are the fewest for which the first and the last differ.
  obtain ⟨hlength, -, hends⟩ :=
    lineColors_draw g [] (Viewport.ofSize 200 200) colors Rgb.black 1 Rgb.black
  have hstrokes : (Derivation.start g).segmentCount < 2 ^ 53 := by omega
  have hsize : colors.palette.size < 2 ^ 53 := by
    show Palette.default.size < 2 ^ 53
    decide
  exact ⟨hlength.trans hcount, hends rfl hcount.ge hstrokes hsize⟩

end Frame

end TurtleCurves
