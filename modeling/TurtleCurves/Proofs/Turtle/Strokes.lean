import TurtleCurves.Turtle.Walk

namespace TurtleCurves

/-!
# The strokes of a walk

How many strokes a word draws is counted on the word itself; which stroke is which is counted by
the turtle.  The two counts agree.

* `Symbol.draws` — the symbols that draw, which are the characters that `Word.strokes` counts;
* `Turtle.indices_react` — one symbol: a stroke carries the turtle's count, and raises it by one;
* `Turtle.indices_read` — a word: the strokes carry consecutive numbers from the turtle's count on;
* `Turtle.drawn_read` — and the count is raised by as many;
* `Turtle.symbols_read` — a word: the strokes carry the letters that draw, in their order;
* `Turtle.stroke_of_step` — a stroke starts where the pen is, as deep as poses are kept;
* `Walk.length_strokes`, `Walk.index_getElem`, `Walk.symbols_strokes` — a whole walk: as many
  strokes as the word has letters that draw, numbered from zero, each with its letter.
-/

/-! ### Symbols that draw -/

/-- The symbol draws. -/
def Symbol.draws : Symbol → Bool
  | .letter _ => true
  | .turnLeft | .turnRight | .push | .pop | .other _ => false

/-- The symbols that draw are those of the letters that are counted. -/
theorem Symbol.draws_ofChar (c : Char) : (Symbol.ofChar c).draws = Word.isStroke c := by
  cases hletter : Word.isStroke c with
  | true =>
    rw [ofChar, if_pos hletter]
    rfl
  | false =>
    -- None of the five symbols that are left draws.
    simp only [ofChar, hletter, Bool.false_eq_true, if_false, apply_ite draws]
    simp only [draws, ite_self]

/-- One more letter adds a stroke if it draws. -/
theorem Word.strokes_cons (c : Char) (w : Word) :
    Word.strokes (c :: w) = (Symbol.ofChar c).draws.toNat + Word.strokes w := by
  rw [Symbol.draws_ofChar, strokes, List.countP_cons, Nat.add_comm]
  cases isStroke c <;> rfl

/-! ### Counting on the way -/

namespace Turtle

variable {α : Type} [Scalar α] (g : Gait α) (t : Turtle α)

/-- **One symbol.** -/
theorem indices_react (s : Symbol) :
    ((t.react g s).1.toList.filterMap Action.stroke?).map Stroke.index =
        List.range' t.drawn s.draws.toNat ∧
      (t.react g s).2.drawn = t.drawn + s.draws.toNat := by
  cases s with
  | letter c => exact ⟨rfl, rfl⟩
  | turnLeft => exact ⟨rfl, rfl⟩
  | turnRight => exact ⟨rfl, rfl⟩
  | push => exact ⟨rfl, rfl⟩
  | pop =>
    unfold react
    -- A pop draws nothing, whether or not a place was saved.
    cases t.saved with
    | nil => exact ⟨rfl, rfl⟩
    | cons p rest => exact ⟨rfl, rfl⟩
  | other c => exact ⟨rfl, rfl⟩

/-- **A word.** -/
theorem indices_read (w : Word) :
    ((t.read g w).1.filterMap Action.stroke?).map Stroke.index =
      List.range' t.drawn w.strokes := by
  induction w generalizing t with
  | nil => rfl
  | cons c w ih =>
    -- The rest is numbered from where the first character leaves the count.
    obtain ⟨hindices, hdrawn⟩ := indices_react g t (.ofChar c)
    rw [read_cons, List.filterMap_append, List.map_append, ih, Word.strokes_cons,
      ← List.range'_append_1]
    unfold step
    rw [hindices, hdrawn]

/-- A word is drawn by as many strokes as it has letters that draw. -/
theorem drawn_read (w : Word) : (t.read g w).2.drawn = t.drawn + w.strokes := by
  induction w generalizing t with
  | nil => rfl
  | cons c w ih =>
    rw [read_cons, ih, Word.strokes_cons, ← Nat.add_assoc]
    exact congrArg (· + Word.strokes w) (indices_react g t (.ofChar c)).2

/-! ### Which stroke is which -/

/-- One character: a stroke carries the letter that draws it. -/
theorem symbols_step (c : Char) :
    ((t.step g c).1.toList.filterMap Action.stroke?).map Stroke.symbol =
      [c].filter Word.isStroke := by
  cases hletter : Word.isStroke c with
  | true =>
    have hsymbol : Symbol.ofChar c = .letter c := if_pos hletter
    rw [List.filter_cons_of_pos hletter, step, hsymbol]
    rfl
  | false =>
    -- There is no stroke, since none is counted.
    have hnone := (indices_react g t (.ofChar c)).1
    rw [Symbol.draws_ofChar, hletter] at hnone
    rw [List.filter_cons_of_neg (ne_true_of_eq_false hletter), step, List.map_eq_nil_iff.mp hnone]
    rfl

/-- **The letters of a word.** -/
theorem symbols_read (w : Word) :
    ((t.read g w).1.filterMap Action.stroke?).map Stroke.symbol = w.filter Word.isStroke := by
  induction w generalizing t with
  | nil => rfl
  | cons c w ih =>
    rw [read_cons, List.filterMap_append, List.map_append, symbols_step, ih, ← List.filter_append]
    rfl

variable {g t}

/-- A stroke goes from the pen to one stroke ahead, as deep as poses are kept. -/
theorem stroke_of_step {c : Char} {s : Stroke α} (h : (t.step g c).1 = some (.draw s)) :
    s.start = t.pose.position ∧ s.stop = (forward g t.pose).position ∧
      s.depth = t.saved.length := by
  unfold step at h
  -- Only a letter draws; a pop alone has two cases, and neither is a stroke.
  cases hsymbol : Symbol.ofChar c with
  | letter c' =>
    rw [hsymbol] at h
    obtain rfl := Action.draw.inj (Option.some.inj h)
    exact ⟨rfl, rfl, rfl⟩
  | pop =>
    rw [hsymbol, react] at h
    cases hsaved : t.saved <;> simp only [hsaved, reduceCtorEq, Option.some.injEq] at h
  | _ =>
    rw [hsymbol] at h
    cases h

end Turtle

/-! ### Whole walks -/

namespace Walk

variable {α : Type} [Scalar α] (g : Gait α) (w : Word)

/-- **The strokes are numbered in a row.** -/
theorem indices_strokes : (strokes g w).map Stroke.index = List.range w.strokes := by
  rw [List.range_eq_range']
  exact Turtle.indices_read g (Turtle.start g) w

/-- There are as many as the word has letters that draw. -/
theorem length_strokes : (strokes g w).length = w.strokes := by
  rw [← List.length_map, indices_strokes, List.length_range]

/-- The strokes are numbered from zero. -/
theorem index_getElem {k : Nat} (hk : k < (strokes g w).length) :
    (strokes g w)[k].index = k := by
  have hmap : k < ((strokes g w).map Stroke.index).length := by rwa [List.length_map]
  calc (strokes g w)[k].index
      = ((strokes g w).map Stroke.index)[k] := (List.getElem_map Stroke.index).symm
    _ = k := by
        simp only [indices_strokes, List.getElem_range]

/-- The strokes carry the letters of the word that draw. -/
theorem symbols_strokes : (strokes g w).map Stroke.symbol = w.filter Word.isStroke :=
  Turtle.symbols_read g (Turtle.start g) w

end Walk

end TurtleCurves
