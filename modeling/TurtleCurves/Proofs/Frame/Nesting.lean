import TurtleCurves.Proofs.Frame.Tracking

namespace TurtleCurves

/-!
# Kept transforms and their return

A call that goes back to a kept transform belongs to the call that kept it: what stands between the
two keeps and goes back to its own transforms, and forgets none.

* `Call.Nested` — such lists of calls;
* `Transform.saved_followAll_of_nested` — they leave what was kept as it was;
* `Transform.pop_of_nested` — so going back restores the whole stack as it was;
* `Transform.exists_nested` — whenever a transform is kept, there is a call that kept it.
-/

variable {α : Type}

/-! ### Calls between keeping and going back -/

namespace Call

/-- The call leaves the kept transforms alone. -/
def leavesKept : Call α → Bool
  | .reset | .push | .pop => false
  | _ => true

/-- Every transform that is kept is gone back to, and no other. -/
inductive Nested : List (Call α) → Prop
  | nil : Nested []
  | cons {call : Call α} {calls : List (Call α)} (hcall : call.leavesKept = true)
      (h : Nested calls) : Nested (call :: calls)
  | branch {inner calls : List (Call α)} (hinner : Nested inner) (h : Nested calls) :
      Nested (.push :: inner ++ .pop :: calls)

theorem Nested.append {cs ds : List (Call α)} (hcs : Nested cs) (hds : Nested ds) :
    Nested (cs ++ ds) := by
  induction hcs with
  | nil => exact hds
  | cons hcall _ ih => exact .cons hcall ih
  | branch hinner _ _ ih =>
    rw [List.append_assoc]
    exact .branch hinner ih

end Call

namespace Transform

/-! ### Going back -/

theorem pop_eq {t u : Transform α} (h : t.saved = u.current :: u.saved) : t.pop = u := by
  rw [pop, h]

variable [Scalar α]

theorem saved_follow_of_leavesKept (t : Transform α) {call : Call α}
    (h : call.leavesKept = true) : (t.follow call).saved = t.saved := by
  cases call with
  | reset => cases h
  | push => cases h
  | pop => cases h
  | _ => rfl

/-- **What was kept is still kept.** -/
theorem saved_followAll_of_nested {calls : List (Call α)} (h : Call.Nested calls)
    (t : Transform α) : (t.followAll calls).saved = t.saved := by
  induction h generalizing t with
  | nil => rfl
  | cons hcall _ ih => rw [followAll_cons, ih, saved_follow_of_leavesKept t hcall]
  | branch _ _ ihinner ih =>
    have hback : (t.push.followAll _).pop = t := pop_eq (ihinner t.push)
    rw [followAll_append, followAll_cons, followAll_cons]
    show (((t.push.followAll _).pop).followAll _).saved = t.saved
    rw [hback, ih]

/-- **Going back restores everything.** -/
theorem pop_of_nested (t : Transform α) {calls : List (Call α)} (h : Call.Nested calls) :
    (t.followAll (.push :: calls)).pop = t :=
  pop_eq (saved_followAll_of_nested h t.push)

/-! ### What is gone back to -/

/-- **Every kept transform was kept by a call.** What has come since is nested in it. The induction
is on the length: before a call that goes back there are two calls to be found, the one that it
belongs to and the one before that. -/
theorem exists_nested {calls : List (Call α)}
    (h : ((initial : Transform α).followAll calls).saved ≠ []) :
    ∃ cs ds, calls = cs ++ .push :: ds ∧ Call.Nested ds := by
  induction hn : calls.length using Nat.strong_induction_on generalizing calls with
  | _ n ih =>
    obtain rfl | ⟨before, call, hcalls⟩ := List.eq_nil_or_concat calls
    · exact absurd rfl h
    rw [List.concat_eq_append] at hcalls
    subst hcalls
    have hshorter : before.length < n := by
      rw [← hn, List.length_append]
      exact Nat.lt_succ_self _
    rw [followAll_append, followAll_cons, followAll_nil] at h
    -- The last call decides: one that keeps the stack is appended to the part after the push.
    by_cases hleaves : call.leavesKept = true
    · rw [saved_follow_of_leavesKept _ hleaves] at h
      obtain ⟨cs, ds, rfl, hnested⟩ := ih _ hshorter h rfl
      exact ⟨cs, ds ++ [call], by simp, hnested.append (.cons hleaves .nil)⟩
    cases call with
    | reset => exact absurd rfl h
    | push => exact ⟨before, [], rfl, .nil⟩
    | pop =>
      have hkept : ((initial : Transform α).followAll before).saved ≠ [] := by
        intro hnone
        rw [follow, pop, hnone] at h
        exact h hnone
      obtain ⟨cs, ds, rfl, hnested⟩ := ih _ hshorter hkept rfl
      -- The pop takes back that push, so what is kept now was kept before it: a shorter list.
      have hback : (initial.followAll (cs ++ .push :: ds)).follow .pop =
          (initial : Transform α).followAll cs := by
        rw [followAll_append]
        exact pop_of_nested _ hnested
      have hshortest : cs.length < n := by
        rw [List.length_append] at hshorter
        omega
      rw [hback] at h
      obtain ⟨cs', ds', rfl, hnested'⟩ := ih _ hshortest h rfl
      exact ⟨cs', ds' ++ (.push :: ds ++ [.pop]), by simp, hnested'.append (.branch hnested .nil)⟩
    | _ => exact absurd rfl hleaves

end Transform

end TurtleCurves
