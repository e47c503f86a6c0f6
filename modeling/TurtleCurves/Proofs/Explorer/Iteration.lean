import Mathlib.Order.Bounds.Basic
import TurtleCurves.Command.Run
import TurtleCurves.Proofs.Grammar.Answers
import TurtleCurves.Proofs.Preset.Table
import TurtleCurves.Scalar.Binary64

namespace TurtleCurves

/-!
# Growing until a word is too long

Several steps of growth by hand are taken one after the other, and the first refusal ends them.
Words need not grow longer from step to step, so it is the first word above the ceiling that counts,
and not the longest.

* `Grammar.StopsAt` — of the steps up to the `last`, those from the `first` on are taken as far as
  no word is above the ceiling;
* `Grammar.StopsAt.isLeast` — they end at the least step whose word is above it, or at the last;
* `Explorer.iterateFrom_of_shows` — the loop of the explorer, by induction on the steps that remain;
* `Command.Yields` — what a part of a command ends with and prints, which `Command.yields_grown`
  says of a preset that is grown on the command line;
* `Explorer.iteratePreset_stopsAt` — all of it, for every preset of every table.
-/

variable {α : Type}

/-! ### The step at which growth ends -/

namespace Grammar

/-- Growth from the word after `m` steps on, up to the word after `last` steps, ends after `k`. -/
structure StopsAt (g : Grammar α) (ceiling m last k : Nat) : Prop where
  ge : m ≤ k
  le : k ≤ last
  /-- Every word that is expanded on the way is within the ceiling. -/
  within : ∀ j, m ≤ j → j < k → (g.word j).byteLength ≤ ceiling
  stops : k = last ∨ ceiling < (g.word k).byteLength

namespace StopsAt

variable {g : Grammar α} {ceiling m last k : Nat}

/-- Nothing is left to be taken. -/
theorem refl (g : Grammar α) (ceiling m : Nat) : StopsAt g ceiling m m m :=
  ⟨Nat.le_refl m, Nat.le_refl m, fun _ hj hlt => absurd hlt (Nat.not_lt_of_le hj), .inl rfl⟩

/-- A word above the ceiling ends it at once. -/
theorem of_lt (hlast : m ≤ last) (h : ceiling < (g.word m).byteLength) :
    StopsAt g ceiling m last m :=
  ⟨Nat.le_refl m, hlast, fun _ hj hlt => absurd hlt (Nat.not_lt_of_le hj), .inr h⟩

/-- A word within the ceiling is expanded, and growth goes on behind it. -/
theorem step (h : StopsAt g ceiling (m + 1) last k) (hsize : (g.word m).byteLength ≤ ceiling) :
    StopsAt g ceiling m last k := by
  refine ⟨Nat.le_of_succ_le h.ge, h.le, fun j hj hlt => ?_, h.stops⟩
  rcases Nat.eq_or_lt_of_le hj with rfl | hlater
  · exact hsize
  · exact h.within j hlater hlt

/-- **The first excess decides.** Growth from the seed ends after the least number of steps that is
the last one or leads to a word above the ceiling. -/
theorem isLeast (h : StopsAt g ceiling 0 last k) :
    IsLeast {j | j = last ∨ ceiling < (g.word j).byteLength} k := by
  refine ⟨h.stops, fun j hj => Nat.le_of_not_lt fun hlt => ?_⟩
  rcases hj with rfl | hover
  · exact absurd h.le (Nat.not_le_of_lt hlt)
  · exact absurd (h.within j (Nat.zero_le j) hlt) (Nat.not_le_of_lt hover)

end StopsAt

/-- What is noted about the step to the word after `j + 1` steps. -/
def growthAfter (g : Grammar α) (j : Nat) : Growth := ⟨j + 1, (g.word (j + 1)).byteLength⟩

/-- Why growth ends after `k` steps: the word is above the ceiling, unless `k` is the last step. -/
def refusalAt (g : Grammar α) (ceiling last k : Nat) : Option (Failure α) :=
  if k < last then some (.overgrown ⟨(g.word k).byteLength, ceiling⟩) else none

end Grammar

/-! ### The loop -/

namespace Explorer

variable [Scalar α]

/-- **Several steps.** From a word after `m` steps on, the loop ends where growth does; every step
is noted, and what ends it early is the refusal of the word that it ends with. -/
theorem iterateFrom_of_shows {g : Grammar α} {e : Explorer α} {d : Derivation α} {m : Nat}
    (hd : e.derivation = some d) (hshows : d.Shows g m) (taken : List Growth) (n : Nat) :
    ∃ k d', g.StopsAt e.limits.manual m (m + n) k ∧ d'.Shows g k ∧
      iterateFrom taken e n =
        ⟨{ e with derivation := some d' },
          ((List.range' m (k - m)).map g.growthAfter).reverse ++ taken,
          g.refusalAt e.limits.manual (m + n) k⟩ := by
  induction n generalizing e d m taken with
  | zero =>
    refine ⟨m, d, .refl g _ m, hshows, ?_⟩
    rw [Nat.sub_self, Grammar.refusalAt, if_neg (by omega), ← hd]
    rfl
  | succ n ih =>
    have hsize : d.size = (g.word m).byteLength := congrArg Word.byteLength hshows.sentence
    by_cases hle : d.size ≤ e.limits.manual
    · -- The step is taken, and the rest of the loop starts one step further on.
      have hgrown : e.grow = (.ok (), { e with derivation := some d.grow }) := grow_of_le hd hle
      obtain ⟨k, d', hstops, hshows', hrest⟩ :=
        ih (e := { e with derivation := some d.grow }) rfl hshows.grow
          (g.growthAfter m :: taken)
      rw [Nat.add_right_comm] at hstops hrest
      refine ⟨k, d', hstops.step (hsize ▸ hle), hshows', ?_⟩
      have hnoted : ({ e with derivation := some d.grow } : Explorer α).growth =
          g.growthAfter m := by
        have hnext : d.grow.size = (g.word (m + 1)).byteLength :=
          congrArg Word.byteLength hshows.grow.sentence
        show (⟨d.grow.iteration, d.grow.size⟩ : Growth) = _
        rw [hshows.grow.iteration, hnext]
        rfl
      have hcount : k - m = (k - (m + 1)) + 1 := by
        have := hstops.ge
        omega
      rw [iterateFrom, hgrown]
      dsimp only
      rw [hnoted, hrest, hcount, List.range'_succ, List.map_cons, List.reverse_cons,
        List.append_assoc]
      rfl
    · have hlt : e.limits.manual < d.size := Nat.lt_of_not_le hle
      refine ⟨m, d, .of_lt (Nat.le_add_right m _) (hsize ▸ hlt), hshows, ?_⟩
      rw [iterateFrom, grow_of_lt hd hlt, Nat.sub_self, Grammar.refusalAt, if_pos (by omega),
        ← hd, ← hsize]
      rfl

end Explorer

/-! ### What is printed -/

/-- The lines that appeared on the screen, the last one first. -/
def Session.lines (s : Session) : List (List Char) :=
  s.shown.filterMap fun
    | .line text => some text
    | .entry _ => none

namespace Command

/-- The part ends with `x`, after it has printed these lines. -/
def Yields {β : Type} (c : Command β) (x : β) (lines : List (List Char)) : Prop :=
  ∀ s, (c s).1 = .ok x ∧ (c s).2.lines = lines.reverse ++ s.lines

variable {β γ : Type}

/-- A value prints nothing. -/
theorem yields_pure (x : β) : Yields (Pure.pure x) x [] := fun _ => ⟨rfl, rfl⟩

/-- A line is printed. -/
theorem yields_print (text : List Char) : Yields (print text) () [text] := fun _ => ⟨rfl, rfl⟩

/-- A note is no line. -/
theorem yields_note (level : Level) (part : Part) (text : List Char) :
    Yields (note level part text) () [] := by
  refine fun s => ⟨rfl, ?_⟩
  by_cases hadmitted : s.filter.admits ⟨level, part, text⟩ = true
  · simp only [note, if_pos hadmitted]
    rfl
  · simp only [note, if_neg hadmitted]
    rfl

/-- A part that succeeds hands its value on, and the session it leaves. -/
theorem andThen_of_ok {c : Command β} {x : β} {s : Session} (h : (c s).1 = .ok x)
    (f : β → Command γ) : (c >>= f) s = f x (c s).2 := by
  show andThen c f s = _
  unfold andThen
  rcases hc : c s with ⟨_ | x', s'⟩
  · rw [hc] at h
    cases h
  · rw [hc] at h
    cases h
    rfl

/-- **One after the other:** the lines of the second part follow those of the first. -/
theorem Yields.bind {c : Command β} {f : β → Command γ} {x : β} {y : γ}
    {ls ms : List (List Char)} (hc : Yields c x ls) (hf : Yields (f x) y ms) :
    Yields (c >>= f) y (ls ++ ms) := by
  intro s
  obtain ⟨hx, hls⟩ := hc s
  obtain ⟨hy, hms⟩ := hf (c s).2
  rw [andThen_of_ok hx, hms, hls, List.reverse_append, List.append_assoc]
  exact ⟨hy, rfl⟩

/-- Behind a part that prints nothing. -/
theorem Yields.behind {c : Command β} {f : β → Command γ} {x : β} {y : γ}
    {ms : List (List Char)} (hc : Yields c x []) (hf : Yields (f x) y ms) :
    Yields (c >>= f) y ms := hc.bind hf

/-- Notes about each element of a list are no lines. -/
theorem yields_forM {xs : List β} {f : β → Command Unit} (hf : ∀ x, Yields (f x) () []) :
    Yields (xs.forM f) () [] := by
  induction xs with
  | nil => exact yields_pure ()
  | cons x xs ih => exact (hf x).behind ih

/-- What is noted of an iteration is no line. -/
theorem yields_noteIteration (i : Iteration α) : Yields (noteIteration i) () [] := by
  refine Yields.behind (yields_forM fun g => yields_note _ _ _) ?_
  split
  · exact yields_note _ _ _
  · exact yields_pure ()

variable [Scalar α]

/-- The line that tells why steps were not taken, if there is one. -/
def stopLines (refusal : Option (Failure α)) : List (List Char) :=
  refusal.toList.map fun f => ("Stopped early: " ++ f.message).toList

/-- Something is printed exactly if growth ends before the last step. -/
theorem stopLines_refusalAt (g : Grammar α) (ceiling last k : Nat) :
    stopLines (g.refusalAt ceiling last k) ≠ [] ↔ k < last := by
  unfold stopLines Grammar.refusalAt
  by_cases hlt : k < last
  · simp [hlt]
  · simp [hlt]

/-- **Growing on the command line.** What is printed is why it ended early, and nothing else. -/
theorem yields_grown {s : Settings α} {key : String} {n : Nat} {side : α} {i : Iteration α}
    (h : Explorer.iteratePreset s key n side = .ok i) :
    Yields (grown s key n side) i.explorer (stopLines i.refusal) := by
  unfold grown
  refine Yields.behind (yields_forM fun p => yields_note _ _ _) ?_
  rw [h]
  dsimp only
  -- A preset that is there is noted, and both branches go on in the same way.
  split
  all_goals
    refine Yields.behind (x := ()) ?_ (Yields.behind (yields_noteIteration i) ?_)
    · first | exact yields_note _ _ _ | exact yields_pure ()
    · cases i.refusal with
      | none => exact Yields.behind (yields_pure ()) (yields_pure _)
      | some f => exact (yields_print _).bind (yields_pure _)

end Command

/-! ### Presets -/

namespace Explorer

variable [Scalar α]

/-- **A preset on the command line.** Every preset of the table is grown up to the least number of
steps that is the requested one or leads to a word above the ceiling for growth by hand. Its seed is
rewritten as often, every word that was rewritten is within the ceiling, and an early end is told
exactly if fewer steps than requested were taken. -/
theorem iteratePreset_stopsAt (s : Settings α) {key : String} (hkey : key ∈ s.presetTable.keys)
    (n : Nat) (side : α) :
    ∃ p i d k, s.presetTable.get? key = some p ∧ iteratePreset s key n side = .ok i ∧
      i.explorer.derivation = some d ∧ d.grammar = p.grammar ∧
      IsLeast {j | j = n ∨ s.limits.manual < (p.grammar.word j).byteLength} k ∧
      d.iteration = k ∧ d.sentence = p.grammar.word k ∧
      (∀ j < k, (p.grammar.word j).byteLength ≤ s.limits.manual) ∧
      i.taken.reverse = (List.range k).map p.grammar.growthAfter ∧
      i.refusal = p.grammar.refusalAt s.limits.manual n k ∧
      Command.Yields (Command.grown s key n side) i.explorer (Command.stopLines i.refusal) ∧
      (Command.stopLines i.refusal ≠ [] ↔ k < n) := by
  obtain ⟨p, hp⟩ := PresetTable.exists_get? hkey
  obtain ⟨e, hload, hd, hlimits⟩ : ∃ e, (ofSettings s side side).load key = (.ok (), e) ∧
      e.derivation = some (Derivation.start p.grammar) ∧ e.limits = s.limits := by
    obtain ⟨symbols, hpresent⟩ :=
      present_eq { ofSettings s side side with presetKey := some p.key : Explorer α } p.grammar
    exact ⟨_, (load_eq hp).trans (congrArg (Prod.mk _) hpresent), rfl, rfl⟩
  -- The loop starts at the seed, which is the word after no steps.
  obtain ⟨k, d, hstops, hshows, hrun⟩ :=
    iterateFrom_of_shows hd (Derivation.Shows.start p.grammar) [] n
  rw [Nat.zero_add, hlimits] at hstops hrun
  have hresult : iteratePreset s key n side = .ok (iterateFrom [] e n) := by
    rw [iteratePreset, hload]
    rfl
  rw [hrun] at hresult
  refine ⟨p, _, d, k, hp, hresult, rfl, hshows.grammar, hstops.isLeast, hshows.iteration,
    hshows.sentence, fun j hj => hstops.within j (Nat.zero_le j) hj, ?_, rfl,
    Command.yields_grown hresult, Command.stopLines_refusalAt _ _ _ _⟩
  rw [List.append_nil, List.reverse_reverse, Nat.sub_zero, List.range_eq_range']

/-- Words of one, eight, sixteen and no bytes, under a ceiling of eight. Eight bytes are still
rewritten; sixteen are not, although the next word would be within the ceiling again. -/
theorem iteratePreset_stopsAt_surge :
    let surge : Preset Float :=
      .classic "surge" "Surge" "F" [('F', "GGGGGGGG"), ('G', "HH"), ('H', "")] 90 10 0 (0, 0)
    let s : Settings Float := { Settings.default with presets := [surge], limits := ⟨8, 100⟩ }
    "surge" ∈ s.presetTable.keys ∧ (surge.grammar.word 3).byteLength = 0 ∧
      ∃ i d, iteratePreset s "surge" 5 8 = .ok i ∧ i.explorer.derivation = some d ∧
        d.iteration = 2 ∧ d.sentence = "HHHHHHHHHHHHHHHH".toList ∧
        i.taken.reverse = [⟨1, 8⟩, ⟨2, 16⟩] ∧ i.refusal = some (.overgrown ⟨16, 8⟩) := by
  intro surge s
  have hkey : "surge" ∈ s.presetTable.keys := by decide +kernel
  have hgrammar : (s.presetTable.get? "surge").map Preset.grammar = some surge.grammar := by
    decide +kernel
  obtain ⟨p, i, d, k, hp, hi, hd, -, hleast, hiteration, hsentence, -, htaken, hrefusal, -⟩ :=
    iteratePreset_stopsAt s hkey 5 8
  rw [hp, Option.map_some, Option.some.injEq] at hgrammar
  rw [hgrammar] at hleast hsentence htaken hrefusal
  -- The word after three steps would be within the limit again, but the loop never gets there.
  have htwo : IsLeast {j | j = 5 ∨ s.limits.manual < (surge.grammar.word j).byteLength} 2 := by
    have hbefore : ∀ j < 2, ¬ (j = 5 ∨ s.limits.manual < (surge.grammar.word j).byteLength) := by
      decide +kernel
    exact ⟨.inr (by decide +kernel), fun j hj => Nat.le_of_not_lt fun hlt => hbefore j hlt hj⟩
  obtain rfl : k = 2 := hleast.unique htwo
  exact ⟨hkey, by decide +kernel, i, d, hi, hd, hiteration, hsentence.trans (by decide +kernel),
    htaken.trans (by decide +kernel), hrefusal.trans (by decide +kernel)⟩

end Explorer

end TurtleCurves
