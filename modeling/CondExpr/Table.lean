/-! # Tables

  Finite maps from texts, kept as entries in ascending order of their keys.
  Keys are ordered by code points, which is also the order of their UTF-8
  bytes. Since the order is fixed, two tables with the same entries are
  equal.
-/

namespace CondExpr

/-- A finite map from texts. -/
structure Table (α : Type) where
  /-- The entries. -/
  entries : List (String × α)
  /-- Keys strictly ascend. -/
  ascending : entries.Pairwise fun a b => a.1 < b.1
  deriving DecidableEq, Repr

namespace Table

variable {α : Type}

/-! ## Section 1: Operations -/

/-- The table without entries. -/
def empty : Table α := ⟨[], .nil⟩

/-- The keys, in ascending order. -/
def keys (t : Table α) : List String := t.entries.map (·.1)

/-- The value of a key. -/
def find? (t : Table α) (key : String) : Option α := t.entries.lookup key

/-- The key has an entry. -/
def contains (t : Table α) (key : String) : Bool := t.entries.any (·.1 = key)

/-- Puts an entry in its place; an entry with the same key gives way. -/
private def insertEntry (key : String) (value : α) : List (String × α) → List (String × α)
  | [] => [(key, value)]
  | entry :: rest =>
    if key < entry.1 then (key, value) :: entry :: rest
    else if key = entry.1 then (key, value) :: rest
    else entry :: insertEntry key value rest

private theorem mem_insertEntry {key : String} {value : α} {entries : List (String × α)}
    {e : String × α} (h : e ∈ insertEntry key value entries) : e = (key, value) ∨ e ∈ entries := by
  induction entries with
  | nil => simpa [insertEntry] using h
  | cons entry rest ih =>
    unfold insertEntry at h
    split at h
    · simpa using h
    · split at h
      · rcases List.mem_cons.1 h with h | h
        · exact .inl h
        · exact .inr (List.mem_cons_of_mem _ h)
      · rcases List.mem_cons.1 h with h | h
        · exact .inr (h ▸ List.mem_cons_self)
        · exact (ih h).imp_right (List.mem_cons_of_mem _)

private theorem lt_of_not_lt_of_ne {a b : String} (h : ¬ a < b) (ne : a ≠ b) : b < a :=
  Classical.byContradiction fun h' =>
    ne (String.le_antisymm (String.not_lt.1 h') (String.not_lt.1 h))

private theorem ascending_insertEntry {key : String} {value : α} {entries : List (String × α)}
    (h : entries.Pairwise fun a b => a.1 < b.1) :
    (insertEntry key value entries).Pairwise fun a b => a.1 < b.1 := by
  induction entries with
  | nil => exact List.pairwise_singleton ..
  | cons entry rest ih =>
    obtain ⟨first, others⟩ := List.pairwise_cons.1 h
    unfold insertEntry
    split
    · rename_i lt
      refine List.pairwise_cons.2 ⟨fun e mem => ?_, h⟩
      rcases List.mem_cons.1 mem with rfl | mem
      · exact lt
      · exact String.lt_trans lt (first e mem)
    · split
      · rename_i eq
        exact List.pairwise_cons.2 ⟨fun e mem => eq ▸ first e mem, others⟩
      · rename_i notLt ne
        refine List.pairwise_cons.2 ⟨fun e mem => ?_, ih others⟩
        rcases mem_insertEntry mem with rfl | mem
        · exact lt_of_not_lt_of_ne notLt ne
        · exact first e mem

/-- Sets the value of a key. -/
def insert (t : Table α) (key : String) (value : α) : Table α :=
  ⟨insertEntry key value t.entries, ascending_insertEntry t.ascending⟩

/-- The table with one entry. -/
def single (key : String) (value : α) : Table α := empty.insert key value

/-- The table of a list of entries; of entries with one key the last counts. -/
def ofList (entries : List (String × α)) : Table α :=
  entries.foldl (fun t entry => t.insert entry.1 entry.2) empty

/-- Both tables together; where both have a key, the second one counts. -/
def union (t u : Table α) : Table α :=
  u.entries.foldl (fun t entry => t.insert entry.1 entry.2) t

/-! ## Section 2: Look-up -/

@[simp] theorem find?_empty (key : String) : (empty : Table α).find? key = none := rfl

private theorem lookup_cons_ite (key : String) (value : α) (rest : List (String × α))
    (other : String) :
    ((key, value) :: rest).lookup other =
      if other = key then some value else rest.lookup other := by
  rw [List.lookup_cons]
  by_cases h : other = key
  · simp [h]
  · simp [h, beq_eq_false_iff_ne.2 h]

private theorem lookup_insertEntry (key : String) (value : α) (entries : List (String × α))
    (other : String) :
    (insertEntry key value entries).lookup other =
      if other = key then some value else entries.lookup other := by
  induction entries with
  | nil => simp [insertEntry, lookup_cons_ite]
  | cons entry rest ih =>
    obtain ⟨k, v⟩ := entry
    unfold insertEntry
    split
    · rw [lookup_cons_ite]
    · split
      · rename_i eq
        subst eq
        by_cases h : other = key <;> simp [lookup_cons_ite, h]
      · rename_i ne
        by_cases h : other = k
        · have : other ≠ key := fun eq => ne (eq.symm.trans h)
          rw [lookup_cons_ite, lookup_cons_ite, if_pos h, if_neg this, if_pos h]
        · rw [lookup_cons_ite, lookup_cons_ite, if_neg h, if_neg h, ih]

@[simp] theorem find?_insert (t : Table α) (key : String) (value : α) (other : String) :
    (t.insert key value).find? other = if other = key then some value else t.find? other :=
  lookup_insertEntry key value t.entries other

@[simp] theorem find?_single (key : String) (value : α) (other : String) :
    (single key value).find? other = if other = key then some value else none := by
  simp [single]

end Table
end CondExpr
