import Mathlib.Data.List.Basic
import TurtleCurves.Grammar.RuleText

namespace TurtleCurves.Text

/-!
# Joined texts taken apart

* `split_unique` — a list is split in one way only at the first element that fails a test;
* `splitOn_intercalate` — pieces without separators can be read off their joined text;
* `unlines_injective`, `lines_unlines` — lines can be read off their joined text, as long as none
  of them holds a line feed;
* `feed_notMem_of_mem_lines` — and what is read off any text holds none;
* `notMem_intercalate` — a joined text has the characters of its pieces and separators only;
* `intercalate_injective` — pieces of one fixed width can be read off their joined text, whatever
  characters they have.
-/

/-! ### Splitting at an element -/

/-- **One split.** What comes before the first element that fails a test, that element and the
rest are determined by the whole list. -/
theorem split_unique {β : Type} {p : β → Prop} {xs xs' ys ys' : List β} {y y' : β}
    (hxs : ∀ x ∈ xs, p x) (hxs' : ∀ x ∈ xs', p x) (hy : ¬ p y) (hy' : ¬ p y')
    (h : xs ++ y :: ys = xs' ++ y' :: ys') : xs = xs' ∧ y = y' ∧ ys = ys' := by
  induction xs generalizing xs' with
  | nil =>
    cases xs' with
    | nil => exact ⟨rfl, List.cons.inj h⟩
    | cons x' rest =>
      have hhead : y = x' := (List.cons.inj h).1
      exact absurd (hhead ▸ hxs' x' List.mem_cons_self) hy
  -- Both lists go on passing the test, or one of them would have ended earlier.
  | cons x rest ih =>
    cases xs' with
    | nil =>
      have hhead : x = y' := (List.cons.inj h).1
      exact absurd (hhead ▸ hxs x List.mem_cons_self) hy'
    | cons x' rest' =>
      obtain ⟨rfl, htail⟩ := List.cons.inj h
      obtain ⟨hrest, hlast⟩ := ih (fun x hx => hxs x (List.mem_cons_of_mem _ hx))
        (fun x hx => hxs' x (List.mem_cons_of_mem _ hx)) htail
      exact ⟨by rw [hrest], hlast⟩

/-! ### Pieces between separators -/

/-- A text without separators is one piece. -/
theorem splitOn_of_notMem {sep : Char} {cs : List Char} (h : sep ∉ cs) :
    splitOn sep cs = [cs] := by
  induction cs with
  | nil => rfl
  | cons c rest ih =>
    rw [List.mem_cons, not_or] at h
    rw [splitOn, if_neg (Ne.symm h.1), ih h.2]

/-- The first separator ends the first piece. -/
theorem splitOn_append {sep : Char} {cs : List Char} (h : sep ∉ cs) (rest : List Char) :
    splitOn sep (cs ++ sep :: rest) = cs :: splitOn sep rest := by
  induction cs with
  | nil => rw [List.nil_append, splitOn, if_pos rfl]
  | cons c cs ih =>
    rw [List.mem_cons, not_or] at h
    rw [List.cons_append, splitOn, if_neg (Ne.symm h.1), ih h.2]

/-- **Pieces without separators** are what stands between the separators. -/
theorem splitOn_intercalate {sep : Char} {ls : List (List Char)} (hne : ls ≠ [])
    (hls : ∀ l ∈ ls, sep ∉ l) : splitOn sep (List.intercalate [sep] ls) = ls := by
  induction ls with
  | nil => exact absurd rfl hne
  | cons l ls ih =>
    have hl := hls l List.mem_cons_self
    cases ls with
    | nil => rw [List.intercalate_singleton, splitOn_of_notMem hl]
    | cons m rest =>
      rw [List.intercalate_cons_cons, List.append_assoc, List.singleton_append, splitOn_append hl,
        ih (List.cons_ne_nil m rest)]
      exact fun l' hl' => hls l' (List.mem_cons_of_mem l hl')

/-! ### Lines -/

theorem unlines_singleton (l : List Char) : unlines [l] = l := List.intercalate_singleton

/-- Between two lines stands a line feed. -/
theorem unlines_cons_cons (l m : List Char) (ls : List (List Char)) :
    unlines (l :: m :: ls) = l ++ '\n' :: unlines (m :: ls) := by
  rw [unlines, List.intercalate_cons_cons, List.append_assoc, List.singleton_append]
  rfl

/-- Two blocks of lines, one after the other. -/
theorem unlines_append {ls more : List (List Char)} (hls : ls ≠ []) (hmore : more ≠ []) :
    unlines (ls ++ more) = unlines ls ++ '\n' :: unlines more := by
  induction ls with
  | nil => exact absurd rfl hls
  | cons l ls ih =>
    cases ls with
    | nil =>
      obtain ⟨m, rest, rfl⟩ := List.exists_cons_of_ne_nil hmore
      rw [unlines_singleton]
      exact unlines_cons_cons l m rest
    | cons m rest =>
      rw [List.cons_append, List.cons_append, unlines_cons_cons, ← List.cons_append,
        ih (List.cons_ne_nil m rest), unlines_cons_cons, List.append_assoc, List.cons_append]

/-- The pieces between line feeds are the lines that were joined. -/
theorem splitOn_unlines {ls : List (List Char)} (hne : ls ≠ []) (hls : ∀ l ∈ ls, '\n' ∉ l) :
    splitOn '\n' (unlines ls) = ls :=
  splitOn_intercalate hne hls

/-- **Lines can be read off their text,** when there is one and none holds a line feed. -/
theorem unlines_injective {ls ls' : List (List Char)} (hne : ls ≠ []) (hne' : ls' ≠ [])
    (hls : ∀ l ∈ ls, '\n' ∉ l) (hls' : ∀ l ∈ ls', '\n' ∉ l) (h : unlines ls = unlines ls') :
    ls = ls' := by
  rw [← splitOn_unlines hne hls, h, splitOn_unlines hne' hls']

/-- A line without a carriage return at its end is not cut. -/
theorem chopReturn_of_getLast?_ne {l : List Char} (h : l.getLast? ≠ some '\r') : chopReturn l = l :=
  if_neg h

/-- **Reading what was joined.** Lines without line feeds, none of them empty and none with a
carriage return at its end, are read back. -/
theorem lines_unlines {ls : List (List Char)} (hfeed : ∀ l ∈ ls, '\n' ∉ l)
    (hreturn : ∀ l ∈ ls, l.getLast? ≠ some '\r') (hfull : ∀ l ∈ ls, l ≠ []) :
    lines (unlines ls) = ls := by
  rcases List.eq_nil_or_concat ls with rfl | ⟨init, last, rfl⟩
  · rfl
  · -- A last line that is empty would be taken for the end of the text: it is singled out.
    rw [List.concat_eq_append] at *
    have hpieces := splitOn_unlines (List.append_ne_nil_of_right_ne_nil init
      (List.cons_ne_nil last [])) hfeed
    have hended : init.map chopReturn = init := by
      rw [List.map_congr_left (g := id), List.map_id]
      intro l hl
      exact chopReturn_of_getLast?_ne (hreturn l (List.mem_append_left _ hl))
    have hlast : last ≠ [] := hfull last (List.mem_append_right _ List.mem_cons_self)
    obtain ⟨c, rest, rfl⟩ := List.exists_cons_of_ne_nil hlast
    unfold lines
    rw [hpieces]
    simp only [List.dropLast_concat, List.getLast?_concat, hended]

/-- The pieces between separators hold none. -/
theorem notMem_of_mem_splitOn {sep : Char} {cs piece : List Char} (h : piece ∈ splitOn sep cs) :
    sep ∉ piece := by
  induction cs generalizing piece with
  | nil =>
    rw [splitOn, List.mem_singleton] at h
    rw [h]
    exact List.not_mem_nil
  | cons c rest ih =>
    unfold splitOn at h
    -- A separator opens an empty piece; any other character goes to the front of the next one.
    split at h
    · rcases List.mem_cons.mp h with rfl | hlater
      · exact List.not_mem_nil
      · exact ih hlater
    · next hc =>
      cases hs : splitOn sep rest with
      | nil => exact absurd hs (splitOn_ne_nil sep rest)
      | cons p ps =>
        rw [hs] at h ih
        rcases List.mem_cons.mp h with rfl | hlater
        · rw [List.mem_cons, not_or]
          exact ⟨Ne.symm hc, ih List.mem_cons_self⟩
        · exact ih (List.mem_cons_of_mem p hlater)

/-- The lines of a text hold no line feeds. -/
theorem feed_notMem_of_mem_lines {cs l : List Char} (h : l ∈ lines cs) : '\n' ∉ l := by
  -- A line that ended is a piece of the split less its carriage return; the last is a piece itself.
  have hended : ∀ l ∈ (splitOn '\n' cs).dropLast.map chopReturn, '\n' ∉ l := by
    intro l hl
    obtain ⟨piece, hpiece, rfl⟩ := List.mem_map.mp hl
    have hfeed := notMem_of_mem_splitOn (List.dropLast_subset _ hpiece)
    unfold chopReturn
    split
    · exact fun hmem => hfeed (List.dropLast_subset _ hmem)
    · exact hfeed
  unfold lines at h
  dsimp only at h
  split at h
  · exact hended l h
  · exact hended l h
  · next last _ hlast =>
    rcases List.mem_append.mp h with hl | hl
    · exact hended l hl
    · rw [List.mem_singleton.mp hl]
      exact notMem_of_mem_splitOn (List.mem_of_getLast? hlast)

/-! ### Pieces of one width -/

/-- A joined text is its first piece, and the other pieces each behind a separator. -/
theorem intercalate_cons {β : Type} (sep x : List β) (rest : List (List β)) :
    List.intercalate sep (x :: rest) = x ++ (rest.map (sep ++ ·)).flatten := by
  induction rest generalizing x with
  | nil => rw [List.intercalate_singleton, List.map_nil, List.flatten_nil, List.append_nil]
  | cons y ys ih =>
    rw [List.intercalate_cons_cons, ih, List.map_cons, List.flatten_cons, List.append_assoc,
      List.append_assoc]

/-- What neither the separator nor a piece holds, the joined text does not hold. -/
theorem notMem_intercalate {β : Type} {b : β} {sep : List β} {xs : List (List β)} (hsep : b ∉ sep)
    (hxs : ∀ x ∈ xs, b ∉ x) : b ∉ List.intercalate sep xs := by
  cases xs with
  | nil => exact List.not_mem_nil
  | cons x rest =>
    rw [intercalate_cons, List.mem_append, List.mem_flatten]
    rintro (hx | ⟨piece, hpiece, hb⟩)
    · exact hxs x List.mem_cons_self hx
    · obtain ⟨y, hy, rfl⟩ := List.mem_map.mp hpiece
      exact (List.mem_append.mp hb).elim hsep (hxs y (List.mem_cons_of_mem x hy))

/-- Pieces of one width have the same length. -/
theorem map_length_of_width {β : Type} {width : Nat} {xs : List (List β)}
    (hxs : ∀ x ∈ xs, x.length = width) : xs.map List.length = List.replicate xs.length width :=
  List.eq_replicate_iff.mpr ⟨List.length_map _, by simpa using hxs⟩

/-- Pieces of one width can be read off what they are strung together to. -/
theorem flatten_injective {β : Type} {width : Nat} (hwidth : 0 < width) {xs xs' : List (List β)}
    (hxs : ∀ x ∈ xs, x.length = width) (hxs' : ∀ x ∈ xs', x.length = width)
    (h : xs.flatten = xs'.flatten) : xs = xs' := by
  -- Lists with one concatenation are equal when the lengths of their parts are.
  have hlens := map_length_of_width hxs
  have hlens' := map_length_of_width hxs'
  have htotal := congrArg List.length h
  rw [List.length_flatten, List.length_flatten, hlens, hlens', List.sum_replicate_nat,
    List.sum_replicate_nat] at htotal
  have hcount : xs.length = xs'.length := Nat.eq_of_mul_eq_mul_right hwidth htotal
  exact List.eq_iff_flatten_eq.mpr ⟨h, by rw [hlens, hlens', hcount]⟩

/-- **Pieces of one width can be read off their text,** whatever they hold. -/
theorem intercalate_injective {β : Type} {sep : List β} {width : Nat} (hwidth : 0 < width)
    {xs xs' : List (List β)} (hxs : ∀ x ∈ xs, x.length = width)
    (hxs' : ∀ x ∈ xs', x.length = width)
    (h : List.intercalate sep xs = List.intercalate sep xs') : xs = xs' := by
  have hnonempty : ∀ {x : List β} {rest : List (List β)}, x.length = width →
      List.intercalate sep (x :: rest) ≠ [] := by
    intro x rest hx hnil
    have hlen := congrArg List.length hnil
    rw [intercalate_cons, List.length_append, List.length_nil] at hlen
    omega
  cases xs with
  | nil =>
    cases xs' with
    | nil => rfl
    | cons x' rest' => exact absurd h.symm (hnonempty (hxs' x' List.mem_cons_self))
  | cons x rest =>
    cases xs' with
    | nil => exact absurd h (hnonempty (hxs x List.mem_cons_self))
    | cons x' rest' =>
      have hx := hxs x List.mem_cons_self
      have hx' := hxs' x' List.mem_cons_self
      rw [intercalate_cons, intercalate_cons] at h
      obtain ⟨rfl, htail⟩ := List.append_inj h (hx.trans hx'.symm)
      -- The other pieces, each with its separator, are of one width too.
      have hwide : ∀ {ys : List (List β)}, (∀ y ∈ ys, y.length = width) →
          ∀ z ∈ ys.map (sep ++ ·), z.length = sep.length + width := by
        intro ys hys z hz
        obtain ⟨y, hy, rfl⟩ := List.mem_map.mp hz
        rw [List.length_append, hys y hy]
      have hmap := flatten_injective (Nat.add_pos_right sep.length hwidth)
        (hwide fun y hy => hxs y (List.mem_cons_of_mem x hy))
        (hwide fun y hy => hxs' y (List.mem_cons_of_mem x hy)) htail
      rw [List.map_injective_iff.mpr (fun a b hab => List.append_cancel_left hab) hmap]

end TurtleCurves.Text
