import TurtleCurves.Settings.Codec

namespace TurtleCurves

/-!
# Fields of records

Records are written as maps by names, and read field by field.

* `Value.mapM_written` — a list that is written item by item is read item by item;
* `Value.fields?_record`, `Fields.find?_written` — a record has the fields it was written with, and
  each is found by its name;
* `Fields.require?_written`, `Fields.optional?_written` — a field that was written is read again;
* `Value.typed?_record` — reading by looks leaves alone what is already told apart.
-/

namespace Value

/-- What is written item by item is read item by item. -/
theorem mapM_written {β γ δ : Type} {write : β → γ} {read : γ → Option δ} {f : β → δ} {l : List β}
    (h : ∀ x ∈ l, read (write x) = some (f x)) : (l.map write).mapM read = some (l.map f) := by
  induction l with
  | nil => rfl
  | cons x l ih =>
    obtain ⟨hx, hl⟩ := List.forall_mem_cons.mp h
    rw [List.map_cons, List.mapM_cons, hx, ih hl]
    rfl

/-- What is read as it was written is the same list. -/
theorem mapM_written_self {β γ : Type} {write : β → γ} {read : γ → Option β}
    (h : ∀ x, read (write x) = some x) (l : List β) : (l.map write).mapM read = some l := by
  rw [mapM_written fun x _ => h x, List.map_id']

end Value

/-! ### Records -/

namespace Fields

variable {α : Type}

/-- The fields of a record as they are read. -/
def written (fields : List (String × Value α)) : List (List Char × Value α) :=
  fields.map fun f => (f.1.toList, f.2)

end Fields

namespace Value

variable {α : Type}

@[simp] theorem text?_ofString (s : String) : text? (ofString s : Value α) = some s.toList := rfl

/-- A record has the fields it was written with. -/
@[simp] theorem fields?_record (fields : List (String × Value α)) :
    (record fields).fields? = some (Fields.written fields) :=
  mapM_written fun _ _ => rfl

end Value

namespace Fields

variable {α β : Type} {fields : List (String × Value α)}

/-- Of fields with different names, a name picks one at most. -/
theorem filter_name (hnodup : (fields.map Prod.fst).Nodup) (name : String) :
    fields.filter (fun f => f.1 == name) = (fields.lookup name).toList.map (name, ·) := by
  induction fields with
  | nil => rfl
  | cons f fields ih =>
    obtain ⟨n, v⟩ := f
    rw [List.map_cons, List.nodup_cons] at hnodup
    by_cases hn : n = name
    · -- The name is found here, and is not used again behind.
      subst hn
      have hothers : ∀ f ∈ fields, ¬ (f.1 == n) = true := fun f hf heq =>
        hnodup.1 (List.mem_map.mpr ⟨f, hf, beq_iff_eq.mp heq⟩)
      rw [List.filter_cons, if_pos (beq_self_eq_true n), List.filter_eq_nil_iff.mpr hothers,
        List.lookup_cons_self]
      rfl
    · rw [List.filter_cons, if_neg (by simpa using hn), ih hnodup.2, List.lookup_cons,
        beq_eq_false_iff_ne.mpr (Ne.symm hn)]

/-- **Fields are found by their names.** -/
theorem find?_written (hnodup : (fields.map Prod.fst).Nodup) (name : String) :
    find? (written fields) name = some (fields.lookup name) := by
  have hname : ((fun f : List Char × Value α => f.1 == name.toList) ∘
      fun f : String × Value α => (f.1.toList, f.2)) = fun f => f.1 == name := by
    funext f
    rw [Bool.eq_iff_iff]
    simp [String.toList_inj]
  rw [find?, written, List.filter_map, hname, filter_name hnodup]
  cases fields.lookup name <;> rfl

/-- A field that has to be there is read. -/
theorem require?_written (hnodup : (fields.map Prod.fst).Nodup) (name : String)
    (read : Value α → Option β) :
    require? (written fields) name read = (fields.lookup name).bind read := by
  rw [require?, find?_written hnodup]
  rfl

/-- A field that may be left out is read where it is there. -/
theorem optional?_written (hnodup : (fields.map Prod.fst).Nodup) (name : String) (absent : β)
    (read : Value α → Option β) :
    optional? (written fields) name absent read =
      ((fields.lookup name).map read).getD (some absent) := by
  rw [optional?, find?_written hnodup]
  cases fields.lookup name <;> rfl

end Fields

/-! ### Trees without bare scalars -/

namespace Value

variable {α : Type} [Scalar α]

/-- A map is left alone by the reading by looks if its keys and values are. -/
theorem typed?_map {entries : List (Value α × Value α)}
    (h : ∀ e ∈ entries, e.1.typed? = some e.1 ∧ e.2.typed? = some e.2) :
    (map entries).typed? = some (map entries) := by
  have hentries : typedEntries? entries = some entries := by
    induction entries with
    | nil => rfl
    | cons e entries ih =>
      obtain ⟨⟨hkey, hvalue⟩, hrest⟩ := List.forall_mem_cons.mp h
      rw [typedEntries?, hkey, hvalue, ih hrest]
      rfl
  rw [typed?, hentries]
  rfl

/-- A record is left alone if its fields are. -/
theorem typed?_record {fields : List (String × Value α)}
    (h : ∀ f ∈ fields, f.2.typed? = some f.2) : (record fields).typed? = some (record fields) := by
  refine typed?_map fun e he => ?_
  obtain ⟨f, hf, rfl⟩ := List.mem_map.mp he
  exact ⟨rfl, h f hf⟩

end Value

end TurtleCurves
