import Mathlib.Data.List.Basic
import Mathlib.Data.List.Induction
import Mathlib.Data.List.Nodup
import MarkupTemplate.Value.Fields

/-!
# What fields hold

The values under names after some have been put there, and that the names stay in order.
-/

namespace MarkupTemplate.Fields

variable {α : Type} {fields : Fields α} {name : String} {a : α}

theorem mem_insert {x : String × α} (h : x ∈ insert name a fields) : x = (name, a) ∨ x ∈ fields := by
  induction fields with
  | nil => exact .inl (List.mem_singleton.1 h)
  | cons head rest ih =>
    obtain ⟨other, b⟩ := head
    unfold insert at h
    split at h
    · rcases List.mem_cons.1 h with hx | hx
      · exact .inl hx
      · exact .inr (List.mem_cons_of_mem _ hx)
    · split at h
      · exact List.mem_cons.1 h
      · rcases List.mem_cons.1 h with hx | hx
        · exact .inr (hx ▸ List.mem_cons_self)
        · exact (ih hx).imp_right (List.mem_cons_of_mem _)

/-- The names ascend, so each is there once. -/
def IsSorted (fields : Fields α) : Prop :=
  fields.Pairwise fun entry later => entry.1 < later.1

theorem IsSorted.insert (h : fields.IsSorted) (name : String) (a : α) :
    IsSorted (insert name a fields) := by
  induction fields with
  | nil => exact List.pairwise_singleton _ _
  | cons head rest ih =>
    obtain ⟨other, b⟩ := head
    obtain ⟨hfirst, hrest⟩ := List.pairwise_cons.1 h
    unfold Fields.insert
    split
    · next heq => exact List.pairwise_cons.2 ⟨heq ▸ hfirst, hrest⟩
    · next hne =>
      split
      · next hlt =>
        refine List.pairwise_cons.2 ⟨fun x hx => ?_, h⟩
        rcases List.mem_cons.1 hx with rfl | hx
        · exact hlt
        · exact String.lt_trans hlt (hfirst x hx)
      · next hnot =>
        have hgt : other < name := Std.lt_of_le_of_ne (String.not_lt.1 hnot) (Ne.symm hne)
        refine List.pairwise_cons.2 ⟨fun x hx => ?_, ih hrest⟩
        rcases mem_insert hx with rfl | hx
        · exact hgt
        · exact hfirst x hx

/-- What comes behind all names is put at the end. -/
theorem insert_last (h : ∀ entry ∈ fields, entry.1 < name) (a : α) :
    insert name a fields = fields ++ [(name, a)] := by
  induction fields with
  | nil => rfl
  | cons head fields ih =>
    have hlt := h head (by simp)
    have hne : name ≠ head.1 := fun heq => String.lt_irrefl _ (heq ▸ hlt)
    rw [Fields.insert, if_neg hne, if_neg (String.lt_asymm hlt), ih fun entry he => h entry (by simp [he])]
    rfl

/-- Fields whose names ascend are put together from themselves. -/
theorem IsSorted.ofList (h : fields.IsSorted) : Fields.ofList fields = fields := by
  induction fields using List.reverseRecOn with
  | nil => rfl
  | append_singleton fields entry ih =>
    obtain ⟨hfields, -, hlast⟩ := List.pairwise_append.1 h
    have hlt : ∀ other ∈ fields, other.1 < entry.1 := fun other ho => hlast other ho entry (by simp)
    rw [Fields.ofList, List.foldl_append, ← Fields.ofList, ih hfields]
    exact insert_last hlt entry.2

theorem IsSorted.insertAll (h : fields.IsSorted) (entries : List (String × α)) :
    IsSorted (entries.foldl (fun fields entry => fields.insert entry.1 entry.2) fields) := by
  induction entries generalizing fields with
  | nil => exact h
  | cons entry entries ih => exact ih (h.insert ..)

theorem isSorted_ofList (entries : List (String × α)) : IsSorted (Fields.ofList entries) :=
  IsSorted.insertAll List.Pairwise.nil entries

/-- Behind the entry of a name come those of greater names. -/
theorem IsSorted.split (h : fields.IsSorted) (ha : fields.get? name = some a) :
    ∃ before after, fields = before ++ (name, a) :: after ∧ ∀ entry ∈ after, name < entry.1 := by
  obtain ⟨before, after, rfl, -⟩ := List.lookup_eq_some_iff.1 ha
  have htail := (List.pairwise_append.1 h).2.1
  exact ⟨before, after, rfl, (List.pairwise_cons.1 htail).1⟩

theorem mem_of_get? (h : fields.get? name = some a) : (name, a) ∈ fields := by
  obtain ⟨before, after, rfl, -⟩ := List.lookup_eq_some_iff.1 h
  simp

/-! ### Fields put together from entries -/

theorem get?_ofList {entries : List (String × α)} (h : ∀ e ∈ entries, e.1 = name → e.2 = a)
    (hm : ∃ e ∈ entries, e.1 = name) : (ofList entries).get? name = some a := by
  -- the last entry decides, so the list is taken apart from its end
  induction entries using List.reverseRecOn with
  | nil =>
    obtain ⟨e, he, -⟩ := hm
    cases he
  | append_singleton entries last ih =>
    rw [ofList, List.foldl_append, List.foldl_cons, List.foldl_nil, get?_insert]
    split
    · rename_i hlast
      rw [h last (by simp) hlast.symm]
    · rename_i hlast
      refine ih (fun e he => h e (by simp [he])) ?_
      obtain ⟨e, he, hname⟩ := hm
      rcases List.mem_append.1 he with he | he
      · exact ⟨e, he, hname⟩
      · rw [List.mem_singleton.1 he] at hname
        exact absurd hname.symm hlast

theorem mem_names : name ∈ fields.names ↔ (fields.get? name).isSome := by
  rw [names, get?, List.lookup_isSome_iff]
  simp

theorem mem_names_insert {other : String} :
    other ∈ names (insert name a fields) ↔ other = name ∨ other ∈ fields.names := by
  rw [mem_names, mem_names, get?_insert]
  split <;> simp [*]

theorem mem_names_ofList {entries : List (String × α)} :
    name ∈ names (ofList entries) ↔ name ∈ entries.map Prod.fst := by
  induction entries using List.reverseRecOn with
  | nil => rfl
  | append_singleton entries last ih =>
    rw [ofList, List.foldl_append, ← ofList, List.foldl_cons, List.foldl_nil, mem_names_insert, ih]
    simp [or_comm]

theorem IsSorted.nodup_names (h : fields.IsSorted) : fields.names.Nodup :=
  List.pairwise_map.2 (h.imp fun hlt heq => by
    rw [heq] at hlt
    exact String.lt_irrefl _ hlt)

/-- Of entries with names of their own each is there. -/
theorem perm_names_ofList {entries : List (String × α)} (h : (entries.map Prod.fst).Nodup) :
    (names (ofList entries)).Perm (entries.map Prod.fst) :=
  (List.perm_ext_iff_of_nodup (isSorted_ofList entries).nodup_names h).2 fun _ => mem_names_ofList

theorem get?_ofList_of_mem {entries : List (String × α)} (h : (entries.map Prod.fst).Nodup) {entry : String × α}
    (he : entry ∈ entries) : (ofList entries).get? entry.1 = some entry.2 := by
  refine get?_ofList (fun other ho hname => ?_) ⟨entry, he, rfl⟩
  rw [List.inj_on_of_nodup_map h ho he hname]

end MarkupTemplate.Fields
