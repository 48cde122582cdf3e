import CondExpr.Table
import Mathlib.Data.List.Nodup

/-! # Tables as finite maps

  A table is determined by its entries up to order, and by what it finds.
  Putting entries with fresh keys into a table only adds them, so a list of
  entries with distinct keys, or two tables without a common key, lose
  nothing when they become one table.
-/

namespace CondExpr.Table

variable {α β : Type}

/-! ## Section 1: Entries and look-up -/

theorem keys_ascending (t : Table α) : t.keys.Pairwise (· < ·) := by
  unfold keys
  exact List.pairwise_map.mpr t.ascending

theorem nodup_keys (t : Table α) : t.keys.Nodup :=
  t.keys_ascending.imp fun hlt => String.ne_of_lt hlt

theorem nodup_entries (t : Table α) : t.entries.Nodup :=
  List.Nodup.of_map Prod.fst t.nodup_keys

/-- The entries are exactly what look-up finds. -/
theorem mem_entries_iff {t : Table α} {key : String} {value : α} :
    (key, value) ∈ t.entries ↔ t.find? key = some value := by
  unfold find?
  rw [List.lookup_eq_some_iff]
  constructor
  · intro hmem
    obtain ⟨before, after, heq⟩ := List.append_of_mem hmem
    refine ⟨before, after, heq, ?_⟩
    intro entry hentry
    have hasc := t.ascending
    rw [heq] at hasc
    have hlt : entry.1 < key := (List.pairwise_append.mp hasc).2.2 entry hentry _ List.mem_cons_self
    have hne : key ≠ entry.1 := (String.ne_of_lt hlt).symm
    simpa using hne
  · intro hsplit
    obtain ⟨before, after, heq, _⟩ := hsplit
    rw [heq]
    simp

theorem mem_keys_iff {t : Table α} {key : String} :
    key ∈ t.keys ↔ ∃ value, (key, value) ∈ t.entries := by
  simp [keys]

theorem contains_eq_true_iff {t : Table α} {key : String} :
    t.contains key = true ↔ key ∈ t.keys := by
  simp [contains, keys]

/-- A table has no entry for a key that is not among its keys. -/
theorem find?_eq_none_iff {t : Table α} {key : String} :
    t.find? key = none ↔ key ∉ t.keys := by
  rw [mem_keys_iff, not_exists, Option.eq_none_iff_forall_ne_some]
  constructor
  · intro h value hmem
    exact h value (mem_entries_iff.mp hmem)
  · intro h value hfind
    exact h value (mem_entries_iff.mpr hfind)

/-! ## Section 2: Equality -/

/-- Tables with the same entries, in whatever order, are equal. -/
theorem eq_of_perm {t u : Table α} (h : t.entries.Perm u.entries) : t = u := by
  have heq : t.entries = u.entries :=
    h.eq_of_pairwise (fun _ _ _ _ hlt hgt => absurd hgt (String.lt_asymm hlt))
      t.ascending u.ascending
  cases t
  cases u
  cases heq
  rfl

/-- The list of keys is determined by which keys there are. -/
theorem keys_eq_of_mem_iff {t : Table α} {u : Table β}
    (h : ∀ key, key ∈ t.keys ↔ key ∈ u.keys) : t.keys = u.keys := by
  have hperm : t.keys.Perm u.keys :=
    (List.perm_ext_iff_of_nodup t.nodup_keys u.nodup_keys).mpr h
  exact hperm.eq_of_pairwise (fun _ _ _ _ hlt hgt => absurd hgt (String.lt_asymm hlt))
    t.keys_ascending u.keys_ascending

/-! ## Section 3: Building tables -/

/-- An entry with a fresh key is added to the others. -/
theorem entries_insert_perm {t : Table α} {key : String} (value : α) (hfresh : key ∉ t.keys) :
    (t.insert key value).entries.Perm ((key, value) :: t.entries) := by
  have hnew : (key, value) ∉ t.entries := fun hmem => hfresh (mem_keys_iff.mpr ⟨value, hmem⟩)
  apply (List.perm_ext_iff_of_nodup (nodup_entries _)
    (List.nodup_cons.mpr ⟨hnew, t.nodup_entries⟩)).mpr
  intro entry
  obtain ⟨other, held⟩ := entry
  rw [mem_entries_iff, find?_insert, List.mem_cons, mem_entries_iff]
  by_cases heq : other = key
  · subst heq
    have hnone : t.find? other = none := find?_eq_none_iff.mpr hfresh
    simp [hnone, eq_comm]
  · simp [heq]

/-- Entries with distinct fresh keys are all added. -/
theorem entries_foldl_insert_perm (added : List (String × α)) (t : Table α)
    (hdistinct : ((t.entries ++ added).map (·.1)).Nodup) :
    (added.foldl (fun t entry => t.insert entry.1 entry.2) t).entries.Perm
      (t.entries ++ added) := by
  induction added generalizing t with
  | nil => simp
  | cons entry rest ih =>
    obtain ⟨key, value⟩ := entry
    have hperm : (t.entries ++ (key, value) :: rest).Perm ((key, value) :: t.entries ++ rest) :=
      List.perm_middle
    have hnodup : (((key, value) :: t.entries ++ rest).map (·.1)).Nodup :=
      (hperm.map _).nodup_iff.mp hdistinct
    have hfresh : key ∉ t.keys := by
      intro hmem
      have hhead : key ∉ (t.entries ++ rest).map (·.1) := (List.nodup_cons.mp hnodup).1
      rw [List.map_append] at hhead
      exact hhead (List.mem_append_left _ hmem)
    have hinsert := entries_insert_perm value hfresh
    have hstep := ih (t.insert key value)
      (((hinsert.append_right rest).map _).nodup_iff.mpr hnodup)
    exact hstep.trans ((hinsert.append_right rest).trans hperm.symm)

/-- A list with distinct keys becomes a table with just its entries. -/
theorem entries_ofList_perm {entries : List (String × α)}
    (hdistinct : (entries.map (·.1)).Nodup) : (ofList entries).entries.Perm entries :=
  entries_foldl_insert_perm entries empty hdistinct

/-- A table is that of its entries, in whatever order. -/
theorem eq_ofList_of_perm {t : Table α} {entries : List (String × α)}
    (h : t.entries.Perm entries) : t = ofList entries := by
  have hdistinct : (entries.map (·.1)).Nodup := (h.map Prod.fst).nodup_iff.mp t.nodup_keys
  exact eq_of_perm (h.trans (entries_ofList_perm hdistinct).symm)

/-- Tables without a common key keep all their entries when united. -/
theorem entries_union_perm {t u : Table α}
    (hdistinct : ((t.entries ++ u.entries).map (·.1)).Nodup) :
    (t.union u).entries.Perm (t.entries ++ u.entries) :=
  entries_foldl_insert_perm u.entries t hdistinct

/-- The same of tables that are known by their keys. -/
theorem entries_union_perm_of_disjoint {t u : Table α} (h : t.keys.Disjoint u.keys) :
    (t.union u).entries.Perm (t.entries ++ u.entries) := by
  apply entries_union_perm
  rw [List.map_append]
  exact List.nodup_append'.mpr ⟨t.nodup_keys, u.nodup_keys, h⟩

/-- Inserting adds its key to the keys. -/
theorem mem_keys_insert_iff {t : Table α} {key other : String} {value : α} :
    other ∈ (t.insert key value).keys ↔ other = key ∨ other ∈ t.keys := by
  rw [← not_iff_not, not_or, ← find?_eq_none_iff, ← find?_eq_none_iff, find?_insert]
  by_cases heq : other = key
  · simp [heq]
  · simp [heq]

private theorem mem_keys_foldl_insert_iff (added : List (String × α)) (t : Table α) {key : String} :
    key ∈ (added.foldl (fun t entry => t.insert entry.1 entry.2) t).keys ↔
      key ∈ t.keys ∨ key ∈ added.map (·.1) := by
  induction added generalizing t with
  | nil => simp
  | cons entry rest ih =>
    rw [List.foldl_cons, ih, mem_keys_insert_iff, List.map_cons, List.mem_cons]
    tauto

/-- The keys of a list of entries are those of its table, repeated ones too. -/
theorem mem_keys_ofList_iff {entries : List (String × α)} {key : String} :
    key ∈ (ofList entries).keys ↔ key ∈ entries.map (·.1) := by
  unfold ofList
  rw [mem_keys_foldl_insert_iff]
  simp [keys, empty]

end CondExpr.Table
