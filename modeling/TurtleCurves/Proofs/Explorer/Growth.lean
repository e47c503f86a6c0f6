import TurtleCurves.Proofs.Explorer.Writes

namespace TurtleCurves

/-!
# Steps of growth in a history

A history is a list of operations, done one after the other.

* `Derivation.Grown d n d'` — the rules were applied `n` times between two derivations;
* `Explorer.grows e op` — the operation makes the word on show take a step of growth; a step is
  automatic (`autoStep`) when a tick takes it, and by hand (`handStep`) otherwise;
* `Explorer.Along P e ops` — every operation of a history finds `P` true of the state it is done
  in;
* `Explorer.countAlong p e ops` — how many operations of a history find `p` true;
* `Explorer.grows_iff`, `Explorer.tick_grows_iff` — to grow is to apply the rules once, and what
  is checked before an automatic step;
* `Explorer.performAll_of_performAll?`, `Explorer.Reached.reachable` — where every step can be
  counted, histories are those without a bound;
* `Explorer.performAll_append`, `Explorer.along_append`, `Explorer.countAlong_append` — histories
  one after the other.
-/

variable {α : Type}

/-! ### Grown words -/

namespace Derivation

/-- The derivation `d'` comes from `d` by `n` steps of growth; what was measured does not count. -/
structure Grown (d : Derivation α) (n : Nat) (d' : Derivation α) : Prop where
  grammar : d'.grammar = d.grammar
  alphabet : d'.alphabet = d.alphabet
  iteration : d'.iteration = d.iteration + n
  sentence : d'.sentence = d.grammar.rules.derive d.sentence n

namespace Grown

theorem refl (d : Derivation α) : Grown d 0 d := ⟨rfl, rfl, rfl, rfl⟩

/-- One step more. -/
theorem grow {d d' : Derivation α} {n : Nat} (h : Grown d n d') : Grown d (n + 1) d'.grow := by
  refine ⟨h.grammar, h.alphabet, ?_, ?_⟩
  · show d'.iteration + 1 = d.iteration + (n + 1)
    rw [h.iteration, Nat.add_assoc]
  · show d'.grammar.rules.apply d'.sentence = d.grammar.rules.derive d.sentence (n + 1)
    rw [h.grammar, h.sentence]
    rfl

/-- Measurements are not counted. -/
theorem measures [Scalar α] {f : Derivation α → Derivation α} (hf : Measures f)
    {d d' : Derivation α} {n : Nat} (h : Grown d n d') : Grown d n (f d') :=
  ⟨(hf.grammar d').trans h.grammar, (hf.alphabet d').trans h.alphabet,
    (hf.iteration d').trans h.iteration, (hf.sentence d').trans h.sentence⟩

end Grown

end Derivation

/-- The operation asks a run to take its pending step. -/
def Operation.isTick : Operation α → Bool
  | .tick _ => true
  | _ => false

namespace Explorer

/-! ### Single steps -/

/-- The steps of the word on show are those of its derivation. -/
theorem steps_of_derivation {e : Explorer α} {d : Derivation α} (h : e.derivation = some d) :
    e.steps = d.iteration := by
  rw [steps, h]
  rfl

/-- A state is counted if its number of steps has 32 bits, and it is the state itself then. -/
theorem counted?_eq_some_iff {e e' : Explorer α} :
    e.counted? = some e' ↔ e = e' ∧ e.steps < UInt32.size := by
  rw [counted?, Option.ite_none_right_eq_some, Option.some_inj]
  exact and_comm

/-- It is not counted if the number has more. -/
theorem counted?_eq_none_iff {e : Explorer α} : e.counted? = none ↔ UInt32.size ≤ e.steps := by
  rw [counted?, ite_eq_right_iff, ← Nat.not_lt]
  exact ⟨fun h hlt => Option.some_ne_none _ (h hlt), fun h hlt => absurd hlt h⟩

variable [Scalar α]

/-- The operation makes the word on show take a step of growth. -/
def grows (e : Explorer α) (op : Operation α) : Bool := e.steps < (e.perform op).steps

/-- The operation is an automatic step of growth. -/
def autoStep (e : Explorer α) (op : Operation α) : Bool := op.isTick && e.grows op

/-- The operation is a step of growth by hand. -/
def handStep (e : Explorer α) (op : Operation α) : Bool := !op.isTick && e.grows op

/-- Measurements leave the number of steps alone. -/
theorem steps_of_measures {e e' : Explorer α} {f : Derivation α → Derivation α}
    (hf : Derivation.Measures f) (h : e'.derivation = e.derivation.map f) :
    e'.steps = e.steps := by
  rw [steps, steps, h]
  cases e.derivation with
  | none => rfl
  | some d => exact hf.iteration d

/-- **To grow is to apply the rules once.** -/
theorem grows_iff {e : Explorer α} {op : Operation α} :
    e.grows op = true ↔
      ∃ d, e.derivation = some d ∧ (e.perform op).derivation = some d.grow := by
  rw [grows, decide_eq_true_iff]
  constructor
  · intro hlt
    -- Growth shows in the number of steps, and what leaves the word on show leaves that number.
    have hmoved : (e.perform op).derivation ≠ e.derivation := by
      intro hsame
      rw [steps, steps, hsame] at hlt
      exact Nat.lt_irrefl _ hlt
    -- One case for each thing that an operation can do: three of them grow the word.
    cases e.effect_perform op with
    | quiet hf hshow _ =>
      have := steps_of_measures hf hshow
      omega
    | byHand _ hd _ hshow _ => exact ⟨_, hd, hshow⟩
    | replaced _ hshow _ =>
      rw [steps_of_derivation hshow] at hlt
      exact absurd hlt (Nat.not_lt_zero _)
    | rewound _ hshow _ =>
      rw [steps_of_derivation hshow] at hlt
      exact absurd hlt (Nat.not_lt_zero _)
    | calledOff hshow _ _ => exact absurd hshow hmoved
    | started _ hd _ hshow _ _ => exact absurd (hshow.trans hd.symm) hmoved
    | stepped _ hd _ _ _ hshow _ _ => exact ⟨_, hd, hshow⟩
    | finished _ hd _ _ _ hshow _ _ => exact ⟨_, hd, hshow⟩
    | refused _ hd _ _ hshow _ _ => exact absurd (hshow.trans hd.symm) hmoved
    | dropped hd hshow _ _ => exact absurd (hshow.trans hd.symm) hmoved
  · rintro ⟨d, hd, hd'⟩
    rw [steps_of_derivation hd, steps_of_derivation hd']
    exact Nat.lt_succ_self d.iteration

/-- Measurements are no growth. -/
theorem grows_of_measures {e : Explorer α} {op : Operation α}
    {f : Derivation α → Derivation α} (hf : Derivation.Measures f)
    (h : (e.perform op).derivation = e.derivation.map f) : e.grows op = false := by
  rw [grows, steps_of_measures hf h]
  exact decide_eq_false (Nat.lt_irrefl _)

/-- What leaves the word on show does not grow it. -/
theorem grows_of_same {e : Explorer α} {op : Operation α}
    (h : (e.perform op).derivation = e.derivation) : e.grows op = false :=
  grows_of_measures .id (by rw [h, Option.map_id'])

/-- **What is checked before an automatic step:** that it is due, and that the word is not above
the ceiling of steps by hand. -/
theorem tick_grows_iff {e : Explorer α} {now : Moment} :
    e.grows (.tick now) = true ↔
      ∃ r d, e.scheduler.run = some r ∧ e.derivation = some d ∧ r.due ≤ now ∧
        d.size ≤ e.limits.manual := by
  constructor
  · intro hgrows
    obtain ⟨d, hd, hd'⟩ := grows_iff.mp hgrows
    cases e.effect_perform (.tick now) with
    | quiet hf hshow _ =>
      rw [grows_of_measures hf hshow] at hgrows
      cases hgrows
    | byHand hop => rcases hop with hop | hop <;> cases hop
    | replaced hop => rcases hop with ⟨_, hop⟩ | ⟨_, hop⟩ <;> cases hop
    | stepped hr hd hdue hsize => exact ⟨_, _, hr, hd, hdue, hsize⟩
    | finished hr hd hdue hsize => exact ⟨_, _, hr, hd, hdue, hsize⟩
    | refused _ hd₁ _ _ hshow =>
      -- A refused step leaves the word as it is.
      have hsame := hd'.symm.trans (hshow.trans (hd₁.symm.trans hd))
      have hiter := congrArg Derivation.iteration (Option.some.inj hsame)
      exact absurd hiter (Nat.succ_ne_self d.iteration)
    | dropped hnone => rw [hd] at hnone; cases hnone
  · rintro ⟨r, d, hr, hd, hdue, hsize⟩
    refine grows_iff.mpr ⟨d, hd, ?_⟩
    show (e.tick now).2.derivation = some d.grow
    rcases tick_of_le hr hd hdue hsize with ⟨_, _, h⟩ | ⟨_, h⟩
    · rw [h]
    · rw [h]

/-! ### Histories -/

@[simp] theorem performAll_nil (e : Explorer α) : e.performAll [] = e := rfl

@[simp] theorem performAll_cons (e : Explorer α) (op : Operation α) (ops : List (Operation α)) :
    e.performAll (op :: ops) = (e.perform op).performAll ops := rfl

/-- A history after another. -/
@[simp] theorem performAll_append (e : Explorer α) (ops more : List (Operation α)) :
    e.performAll (ops ++ more) = (e.performAll ops).performAll more := List.foldl_append

/-- What a history leads to from a state that is reached is reached. -/
theorem Reachable.performAll {e : Explorer α} (he : Reachable e) (ops : List (Operation α)) :
    Reachable (e.performAll ops) := by
  induction ops generalizing e with
  | nil => exact he
  | cons op ops ih => exact ih (he.step op)

/-! ### Counted steps -/

/-- Nothing is counted before the first grammar. -/
theorem steps_ofSettings (s : Settings α) (width height : α) :
    (ofSettings s width height).steps < UInt32.size := Nat.two_pow_pos 32

/-- **A history whose steps can be counted** is the history without a bound, and the count at its
end has 32 bits. -/
theorem performAll_of_performAll? {e e' : Explorer α} {ops : List (Operation α)}
    (hcounted : e.steps < UInt32.size) (h : e.performAll? ops = some e') :
    e.performAll ops = e' ∧ e'.steps < UInt32.size := by
  induction ops generalizing e with
  | nil => obtain rfl : e = e' := Option.some_inj.mp h; exact ⟨rfl, hcounted⟩
  -- Each operation was counted, so it led where it leads without a bound.
  | cons op ops ih =>
    rw [performAll?, List.foldlM_cons] at h
    obtain ⟨next, hop, hrest⟩ := Option.bind_eq_some_iff.mp h
    obtain ⟨rfl, hnext⟩ := counted?_eq_some_iff.mp hop
    exact ih hnext hrest

/-- What is reached with counted steps is reached. -/
theorem Reached.reachable {e : Explorer α} (h : Reached e) : Reachable e := by
  induction h with
  | start s width height => exact .start s width height
  | step _ hop ih =>
    obtain ⟨rfl, -⟩ := counted?_eq_some_iff.mp hop
    exact ih.step _

/-- A counted history goes on from a state that is reached with counted steps to another. -/
theorem Reached.performAll? {e e' : Explorer α} (he : Reached e) {ops : List (Operation α)}
    (h : e.performAll? ops = some e') : Reached e' := by
  induction ops generalizing e with
  | nil => obtain rfl : e = e' := Option.some_inj.mp h; exact he
  | cons op ops ih =>
    rw [Explorer.performAll?, List.foldlM_cons] at h
    obtain ⟨next, hop, hrest⟩ := Option.bind_eq_some_iff.mp h
    exact ih (he.step hop) hrest

/-! ### Properties along a history -/

/-- Every operation of a history finds `P` true of itself and of the state it is done in. -/
def Along (P : Explorer α → Operation α → Prop) : Explorer α → List (Operation α) → Prop
  | _, [] => True
  | e, op :: ops => P e op ∧ Along P (e.perform op) ops

instance Along.decidable (P : Explorer α → Operation α → Prop) [∀ e op, Decidable (P e op)] :
    (e : Explorer α) → (ops : List (Operation α)) → Decidable (Along P e ops)
  | _, [] => .isTrue trivial
  | e, op :: ops =>
    have := Along.decidable P (e.perform op) ops
    inferInstanceAs (Decidable (P e op ∧ Along P (e.perform op) ops))

/-- How many operations of a history find `p` true of themselves and of the state they are done
in. -/
def countAlong (p : Explorer α → Operation α → Bool) : Explorer α → List (Operation α) → Nat
  | _, [] => 0
  | e, op :: ops => (p e op).toNat + countAlong p (e.perform op) ops

/-- A property holds along two histories if it holds along each. -/
theorem along_append {P : Explorer α → Operation α → Prop} {e : Explorer α}
    {ops more : List (Operation α)} :
    Along P e (ops ++ more) ↔ Along P e ops ∧ Along P (e.performAll ops) more := by
  induction ops generalizing e with
  | nil => exact (and_iff_right trivial).symm
  | cons op ops ih =>
    show P e op ∧ Along P (e.perform op) (ops ++ more) ↔ _
    rw [ih, ← and_assoc]
    rfl

/-- The operations of two histories are counted in each. -/
theorem countAlong_append (p : Explorer α → Operation α → Bool) (e : Explorer α)
    (ops more : List (Operation α)) :
    countAlong p e (ops ++ more) = countAlong p e ops + countAlong p (e.performAll ops) more := by
  induction ops generalizing e with
  | nil => exact (Nat.zero_add _).symm
  | cons op ops ih =>
    show (p e op).toNat + countAlong p (e.perform op) (ops ++ more) = _
    rw [ih, ← Nat.add_assoc]
    rfl

/-- One more operation at the end of a history. -/
theorem countAlong_concat (p : Explorer α → Operation α → Bool) (e : Explorer α)
    (ops : List (Operation α)) (op : Operation α) :
    countAlong p e (ops ++ [op]) = countAlong p e ops + (p (e.performAll ops) op).toNat := by
  rw [countAlong_append]
  rfl

/-- The presets do not change along a history. -/
theorem presets_performAll (e : Explorer α) (ops : List (Operation α)) :
    (e.performAll ops).presets = e.presets := by
  induction ops generalizing e with
  | nil => rfl
  | cons op ops ih => rw [performAll_cons, ih, presets_perform]

/-- The limits do not change along a history. -/
theorem limits_performAll (e : Explorer α) (ops : List (Operation α)) :
    (e.performAll ops).limits = e.limits := by
  induction ops generalizing e with
  | nil => rfl
  | cons op ops ih => rw [performAll_cons, ih, limits_perform]

end Explorer

end TurtleCurves
