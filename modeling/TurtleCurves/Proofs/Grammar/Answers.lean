import TurtleCurves.Proofs.Explorer.Coherence
import TurtleCurves.Proofs.Grammar.Rewriting
import TurtleCurves.Scalar.Binary64

namespace TurtleCurves

/-!
# What a derivation answers

A derivation keeps its present word, and what was measured of it until the word changes.  What it
answers does not depend on what it happens to keep: a count of steps would do.

* `Derivation.Request`, `Derivation.Answer` — what can be asked of a derivation, and what it says;
* `Derivation.ask`, `Derivation.askAll` — one request, and several one after the other;
* `Grammar.answer`, `Grammar.answerAll` — the same from a count of steps alone: every word is
  grown from the seed again, and every measurement is taken anew;
* `Derivation.Shows g n d` — `d` is the seed of `g` after `n` steps, and its notes are true;
* `Shows.ask` — a request is answered as from the count, and `Shows` is kept;
* `Derivation.askAll_start` — hence so is every list of requests, and the word on show is the seed
  rewritten letter by letter as many times as there were steps.
-/

variable {α : Type}

/-! ### Requests -/

namespace Derivation

/-- What can be asked of a derivation. -/
inductive Request where
  /-- One step of growth. -/
  | grow
  /-- One step of growth, unless the word is longer than the ceiling. -/
  | growWithin (ceiling : Nat)
  /-- Back to the seed. -/
  | rewind
  /-- How many strokes the word draws. -/
  | segmentCount
  /-- The box around the drawing. -/
  | bounds
  deriving DecidableEq, Repr

/-- What a derivation says to a request. -/
inductive Answer (α : Type) where
  | done
  | refused (refusal : Overgrown)
  | strokes (count : Nat)
  | box (bounds : Bounds α)
  deriving DecidableEq, Repr

variable [Scalar α]

/-- The answer to a request and the derivation after it; a measurement is remembered. -/
def ask (d : Derivation α) : Request → Answer α × Derivation α
  | .grow => (.done, d.grow)
  | .growWithin ceiling =>
    match d.growWithin ceiling with
    | .ok d' => (.done, d')
    | .error refusal => (.refused refusal, d)
  | .rewind => (.done, d.rewind)
  | .segmentCount => (.strokes d.segmentCount, d.noteSegments)
  | .bounds => (.box d.bounds, d.noteBounds)

/-- The answers to a list of requests and the derivation after it. -/
def askAll (d : Derivation α) : List Request → List (Answer α) × Derivation α
  | [] => ([], d)
  | r :: rs =>
    let (answer, d) := d.ask r
    let (answers, d) := d.askAll rs
    (answer :: answers, d)

end Derivation

/-! ### Answers from a count -/

namespace Grammar

/-- The seed after `n` steps. -/
def word (g : Grammar α) (n : Nat) : Word := g.rules.derive g.seed n

variable [Scalar α]

/-- The answer to a request after `n` steps, and the count after it. -/
def answer (g : Grammar α) (n : Nat) : Derivation.Request → Derivation.Answer α × Nat
  | .grow => (.done, n + 1)
  | .growWithin ceiling =>
    if (g.word n).byteLength ≤ ceiling then (.done, n + 1)
    else (.refused ⟨(g.word n).byteLength, ceiling⟩, n)
  | .rewind => (.done, 0)
  | .segmentCount => (.strokes (g.word n).strokes, n)
  | .bounds => (.box (Walk.bounds g.gait (g.word n)), n)

/-- The answers to a list of requests after `n` steps, and the count after it. -/
def answerAll (g : Grammar α) (n : Nat) :
    List Derivation.Request → List (Derivation.Answer α) × Nat
  | [] => ([], n)
  | r :: rs =>
    let (answer, n) := g.answer n r
    let (answers, n) := g.answerAll n rs
    (answer :: answers, n)

end Grammar

/-! ### The notes never show -/

namespace Derivation

variable [Scalar α]

/-- Noting the number of strokes is a measurement. -/
theorem Measures.noteSegments : Measures (α := α) Derivation.noteSegments :=
  ⟨fun _ => rfl, fun _ => rfl, fun _ => rfl⟩

/-- Noting the bounds is one. -/
theorem Measures.noteBounds : Measures (α := α) Derivation.noteBounds :=
  ⟨fun _ => rfl, fun _ => rfl, fun _ => rfl⟩

/-- The derivation is the seed of `g` after `n` steps, and what was measured of it is true. -/
structure Shows (g : Grammar α) (n : Nat) (d : Derivation α) : Prop where
  coherent : d.Coherent
  grammar : d.grammar = g
  iteration : d.iteration = n

namespace Shows

variable {g : Grammar α} {n : Nat} {d : Derivation α}

theorem start (g : Grammar α) : Shows g 0 (start g) := ⟨.start g, rfl, rfl⟩

/-- The word on show is the seed after the steps that are counted. -/
theorem sentence (h : Shows g n d) : d.sentence = g.word n := by
  rw [h.coherent.sentence_eq, h.grammar, h.iteration]
  rfl

/-- The strokes are those of that word, whether they were noted or not. -/
theorem segmentCount (h : Shows g n d) : d.segmentCount = (g.word n).strokes := by
  rw [h.coherent.segments, h.sentence]

/-- So are the bounds. -/
theorem bounds (h : Shows g n d) : d.bounds = Walk.bounds g.gait (g.word n) := by
  rw [h.coherent.bounds, h.grammar, h.sentence]

theorem grow (h : Shows g n d) : Shows g (n + 1) d.grow :=
  ⟨h.coherent.grow, h.grammar, congrArg (· + 1) h.iteration⟩

theorem rewind (h : Shows g n d) : Shows g 0 d.rewind := ⟨h.coherent.rewind, h.grammar, rfl⟩

/-- A measurement leaves what is shown. -/
theorem measures (h : Shows g n d) {f : Derivation α → Derivation α} (hf : Measures f) :
    Shows g n (f d) :=
  ⟨h.coherent.measures hf, (hf.grammar d).trans h.grammar, (hf.iteration d).trans h.iteration⟩

/-- **One request.** It is answered as from the count alone, and leaves a derivation that shows
the count after it. -/
theorem ask (h : Shows g n d) (r : Request) :
    (d.ask r).1 = (g.answer n r).1 ∧ Shows g (g.answer n r).2 (d.ask r).2 := by
  cases r with
  | grow => exact ⟨rfl, h.grow⟩
  | growWithin ceiling =>
    have hsize : d.size = (g.word n).byteLength := congrArg Word.byteLength h.sentence
    -- The length that is asked about is that of the word grown anew.
    by_cases hle : (g.word n).byteLength ≤ ceiling
    · have hgrow := growWithin_of_le (hsize ▸ hle)
      simp only [Derivation.ask, Grammar.answer, hgrow, if_pos hle]
      exact ⟨trivial, h.grow⟩
    · have hrefused := growWithin_of_lt (hsize ▸ Nat.lt_of_not_le hle)
      simp only [Derivation.ask, Grammar.answer, hrefused, if_neg hle, hsize]
      exact ⟨trivial, h⟩
  | rewind => exact ⟨rfl, h.rewind⟩
  | segmentCount => exact ⟨congrArg Answer.strokes h.segmentCount, h.measures .noteSegments⟩
  | bounds => exact ⟨congrArg Answer.box h.bounds, h.measures .noteBounds⟩

/-- **Many requests.** -/
theorem askAll (h : Shows g n d) (rs : List Request) :
    (d.askAll rs).1 = (g.answerAll n rs).1 ∧
      Shows g (g.answerAll n rs).2 (d.askAll rs).2 := by
  induction rs generalizing d n with
  | nil => exact ⟨rfl, h⟩
  | cons r rs ih =>
    obtain ⟨hanswer, hshows⟩ := h.ask r
    obtain ⟨hanswers, hshows⟩ := ih hshows
    refine ⟨?_, hshows⟩
    show (d.ask r).1 :: ((d.ask r).2.askAll rs).1 = _
    rw [hanswer, hanswers]
    rfl

end Shows

/-- **Coherence of word, count and notes.** From the seed of any grammar, every list of requests
is answered as from the count of steps alone, each measurement being that of the word at the time;
and the word it leads to is the one word to which the seed is rewritten, letter by letter, as often
as the derivation counts, whatever was measured on the way. -/
theorem askAll_start (g : Grammar α) (rs : List Request) :
    let d := ((start g).askAll rs).2
    ((start g).askAll rs).1 = (g.answerAll 0 rs).1 ∧
      (∀ n w, g.rules.RewritesIn n g.seed w ↔ g.word n = w) ∧
      d.grammar = g ∧
      d.iteration = (g.answerAll 0 rs).2 ∧
      (∀ w, g.rules.RewritesIn d.iteration g.seed w ↔ d.sentence = w) ∧
      d.segmentCount = d.sentence.strokes ∧
      d.bounds = Walk.bounds g.gait d.sentence := by
  intro d
  -- `Shows` is the invariant of the requests: what is shown is the word that many steps from the
  -- seed.
  obtain ⟨hanswers, hshows⟩ := (Shows.start g).askAll rs
  refine ⟨hanswers, fun n w => Rules.rewritesIn_iff, hshows.grammar, hshows.iteration, ?_,
    hshows.coherent.segments, ?_⟩
  · intro w
    rw [hshows.iteration, hshows.sentence]
    exact Rules.rewritesIn_iff
  · rw [hshows.bounds, hshows.sentence]

/-- A stroke of the snowflake curve becomes four strokes, which are counted anew and are too many
for another step under a low ceiling. -/
theorem askAll_start_snowflake :
    let g : Grammar Float :=
      ⟨['F'], SortedMap.empty.insert 'F' "F+F--F+F".toList, 60, 10, 0, ⟨0, 0⟩⟩
    let rs : List Request := [.segmentCount, .grow, .growWithin 7, .segmentCount]
    ((start g).askAll rs).1 = [.strokes 1, .done, .refused ⟨8, 7⟩, .strokes 4] ∧
      ((start g).askAll rs).2.sentence = "F+F--F+F".toList := by
  intro g rs
  obtain ⟨hanswers, -, -, hcount, hsentence, -, -⟩ := askAll_start g rs
  have hone : ((start g).askAll rs).2.iteration = 1 := hcount
  -- One step rewrites the seed's only letter by its rule and stops there.
  have hrewrites : g.rules.Rewrites ['F'] "F+F--F+F".toList := by
    rw [← List.append_nil "F+F--F+F".toList]
    exact .expand List.mem_cons_self .nil
  rw [hone] at hsentence
  exact ⟨hanswers, (hsentence _).mp (.succ (.zero _) hrewrites)⟩

end Derivation

end TurtleCurves
