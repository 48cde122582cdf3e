import CondExpr.Proofs.Rendered
import CondExpr.Proofs.Table

/-! # The tables of a compiled expression

  A condition has one name entry for every leaf and one operand entry for
  every operand. All their placeholders are different, whatever the root
  token is: this is where addresses that are told apart pay off. So when
  the tables of two operands are united nothing is overwritten, and the
  tables of the whole hold exactly these entries.
-/

namespace CondExpr

/-! ## Section 1: Entries -/

namespace Condition

/-- The name placeholders of the leaves, with the attributes they name. -/
def nameEntries (ns : Namespace) (c : Condition) : List (String × String) :=
  c.sites.map fun site => ((ns.leafAt site.1).name, site.2.field)

/-- The placeholders of all operands, with the operands. -/
def operandEntries (ns : Namespace) (c : Condition) : List (String × Scalar) :=
  c.sites.flatMap fun site => site.2.slotted.map fun slotted =>
    ((ns.leafAt site.1).operand slotted.1, slotted.2)

variable (ns : Namespace) (left right inner : Condition) (op : Connective)

theorem nameEntries_join : nameEntries ns (.join left op right) =
    left.nameEntries (ns.child 0) ++ right.nameEntries (ns.child 1) := by
  simp [nameEntries, Expression.sites, Function.comp_def]

theorem nameEntries_negation :
    nameEntries ns (.negation inner) = inner.nameEntries (ns.child 0) := by
  simp [nameEntries, Expression.sites, Function.comp_def]

theorem operandEntries_join : operandEntries ns (.join left op right) =
    left.operandEntries (ns.child 0) ++ right.operandEntries (ns.child 1) := by
  simp [operandEntries, Expression.sites, List.flatMap_map]

theorem operandEntries_negation :
    operandEntries ns (.negation inner) = inner.operandEntries (ns.child 0) := by
  simp [operandEntries, Expression.sites, List.flatMap_map]

/-! ## Section 2: Placeholders

  Which placeholders there are is a matter of the layout, and they are all
  different.
-/

/-- The name placeholders are those of the leaves of the layout. -/
theorem map_fst_nameEntries (c : Condition) :
    (c.nameEntries ns).map (·.1) = (c.layout ns).leaves.map fun leaf => leaf.1.name := by
  rw [leaves_layout]
  simp [nameEntries, Function.comp_def]

/-- The operand placeholders are those of the slots of the layout. -/
theorem map_fst_operandEntries (c : Condition) :
    (c.operandEntries ns).map (·.1) =
      (c.layout ns).leaves.flatMap fun leaf => leaf.2.slots.map leaf.1.operand := by
  rw [leaves_layout, List.flatMap_map]
  unfold operandEntries
  rw [List.map_flatMap]
  simp [← Predicate.map_fst_slotted, Function.comp_def]

theorem nodup_nameEntries (c : Condition) : ((c.nameEntries ns).map (·.1)).Nodup := by
  have hpaths := List.pairwise_map.mp c.nodup_paths
  rw [map_fst_nameEntries, leaves_layout, List.map_map]
  apply List.pairwise_map.mpr
  apply hpaths.imp
  intro site site' hne heq
  exact hne (Namespace.name_leafAt_inj heq)

theorem nodup_operandEntries (c : Condition) : ((c.operandEntries ns).map (·.1)).Nodup := by
  have hpaths := List.pairwise_map.mp c.nodup_paths
  rw [map_fst_operandEntries, leaves_layout, List.flatMap_map, List.nodup_flatMap]
  constructor
  · intro site _
    apply List.pairwise_map.mpr
    apply site.2.shape.nodup_slots.imp
    intro slot slot' hne heq
    exact hne (Namespace.operand_leafAt_inj heq).2
  · apply hpaths.imp
    intro site site' hne key hkey hkey'
    obtain ⟨slot, _, rfl⟩ := List.mem_map.mp hkey
    obtain ⟨slot', _, heq⟩ := List.mem_map.mp hkey'
    exact hne (Namespace.operand_leafAt_inj heq).1.symm

end Condition

/-! ## Section 3: Nothing is lost -/

namespace Rendered

variable {encode : Encoder} {ns : Namespace} {c left right : Condition}
  {out x y : CompiledExpression}

private theorem nodup_names_append (hx : x.names.entries.Perm (left.nameEntries (ns.child 0)))
    (hy : y.names.entries.Perm (right.nameEntries (ns.child 1))) :
    ((x.names.entries ++ y.names.entries).map (·.1)).Nodup := by
  have hperm := (hx.append hy).map (·.1)
  rw [← Condition.nameEntries_join ns left right .and] at hperm
  exact hperm.nodup_iff.mpr (Condition.nodup_nameEntries ns _)

/-- The name table holds the name entries. -/
theorem names_perm (h : Rendered encode ns c out) :
    out.names.entries.Perm (c.nameEntries ns) := by
  induction h with
  | leaf hcount hops => exact List.Perm.refl _
  | join hleft hright ihl ihr =>
    rw [Condition.nameEntries_join]
    exact (Table.entries_union_perm (nodup_names_append ihl ihr)).trans (ihl.append ihr)
  | negation hinner ih =>
    rw [Condition.nameEntries_negation]
    exact ih

/-- The entries of a value table, each value as an encoder returns it. -/
def returned (t : Table AttributeValue) : List (String × Except EncodeError AttributeValue) :=
  t.entries.map fun entry => (entry.1, .ok entry.2)

theorem mem_returned_iff {t : Table AttributeValue} {key : String} {value : AttributeValue} :
    (key, .ok value) ∈ returned t ↔ (key, value) ∈ t.entries := by
  simp [returned]

private theorem keys_of_returned {t : Table AttributeValue} {entries : List (String × Scalar)}
    (h : (returned t).Perm (entries.map fun entry => (entry.1, encode entry.2))) :
    t.keys.Perm (entries.map (·.1)) := by
  have hkeys := h.map (·.1)
  unfold returned at hkeys
  rw [List.map_map, List.map_map] at hkeys
  exact hkeys

private theorem nodup_values_append
    (hx : x.values.keys.Perm ((left.operandEntries (ns.child 0)).map (·.1)))
    (hy : y.values.keys.Perm ((right.operandEntries (ns.child 1)).map (·.1))) :
    ((x.values.entries ++ y.values.entries).map (·.1)).Nodup := by
  have hperm := hx.append hy
  rw [← List.map_append, ← Condition.operandEntries_join ns left right .and] at hperm
  rw [List.map_append]
  exact hperm.nodup_iff.mpr (Condition.nodup_operandEntries ns _)

private theorem values_perm_leaf {p : Predicate} {encoded : List AttributeValue}
    (hops : p.operands.map encode = encoded.map .ok) :
    (returned (p.compiled (ns.child 0) encoded).values).Perm
      ((Condition.operandEntries ns (.leaf p)).map fun entry => (entry.1, encode entry.2)) := by
  have hlen : encoded.length = p.shape.slots.length := by
    rw [p.length_slots_shape]
    simpa using (congrArg List.length hops).symm
  have hdistinct : (((p.shape.slots.map (ns.child 0).operand).zip encoded).map (·.1)).Nodup := by
    have hnodup := Condition.nodup_operandEntries ns (.leaf p)
    rw [List.map_fst_zip (by simp [hlen])]
    simpa [Condition.operandEntries, Expression.sites, ← Predicate.map_fst_slotted,
      Function.comp_def] using hnodup
  -- Encoding value by value turns the operands in their slots into the values there.
  have hentries : ((p.shape.slots.map (ns.child 0).operand).zip encoded).map
      (fun entry => (entry.1, .ok entry.2)) =
        (Condition.operandEntries ns (.leaf p)).map fun entry => (entry.1, encode entry.2) := by
    calc ((p.shape.slots.map (ns.child 0).operand).zip encoded).map
          (fun entry => (entry.1, .ok entry.2))
        = (p.shape.slots.map (ns.child 0).operand).zip (encoded.map .ok) := by
          rw [List.zip_map_right]
          rfl
      _ = (p.shape.slots.map (ns.child 0).operand).zip (p.operands.map encode) := by rw [hops]
      _ = (Condition.operandEntries ns (.leaf p)).map fun entry => (entry.1, encode entry.2) := by
          rw [List.zip_map]
          simp [Condition.operandEntries, Expression.sites, Predicate.slotted, Prod.map]
  rw [← hentries]
  exact (Table.entries_ofList_perm hdistinct).map _

/-- The value table holds what the operand entries become when encoded. -/
theorem values_perm (h : Rendered encode ns c out) :
    (returned out.values).Perm
      ((c.operandEntries ns).map fun entry => (entry.1, encode entry.2)) := by
  induction h with
  | leaf hcount hops => exact values_perm_leaf hops
  | join hleft hright ihl ihr =>
    have hdistinct := nodup_values_append (keys_of_returned ihl) (keys_of_returned ihr)
    rw [Condition.operandEntries_join, List.map_append]
    refine ((Table.entries_union_perm hdistinct).map _).trans ?_
    rw [List.map_append]
    exact ihl.append ihr
  | negation hinner ih =>
    rw [Condition.operandEntries_negation]
    exact ih

/-- The keys of the name table are the name placeholders of the layout. -/
theorem names_keys_perm (h : Rendered encode ns c out) :
    out.names.keys.Perm ((c.layout ns).leaves.map fun leaf => leaf.1.name) := by
  rw [← Condition.map_fst_nameEntries]
  exact h.names_perm.map _

/-- The keys of the value table are the operand placeholders of the layout. -/
theorem values_keys_perm (h : Rendered encode ns c out) :
    out.values.keys.Perm
      ((c.layout ns).leaves.flatMap fun leaf => leaf.2.slots.map leaf.1.operand) := by
  rw [← Condition.map_fst_operandEntries]
  exact keys_of_returned h.values_perm

/-- The operands of a connective share no name placeholder. -/
theorem names_disjoint (hleft : Rendered encode (ns.child 0) left x)
    (hright : Rendered encode (ns.child 1) right y) : x.names.keys.Disjoint y.names.keys := by
  have hnodup := nodup_names_append hleft.names_perm hright.names_perm
  rw [List.map_append] at hnodup
  exact List.disjoint_of_nodup_append hnodup

/-- The operands of a connective share no operand placeholder. -/
theorem values_disjoint (hleft : Rendered encode (ns.child 0) left x)
    (hright : Rendered encode (ns.child 1) right y) : x.values.keys.Disjoint y.values.keys := by
  have hnodup := nodup_values_append (keys_of_returned hleft.values_perm)
    (keys_of_returned hright.values_perm)
  rw [List.map_append] at hnodup
  exact List.disjoint_of_nodup_append hnodup

end Rendered

/-! ## Section 4: What the tables are -/

namespace Condition

variable {encode : Encoder} {ns : Namespace} {c : Condition} {out : CompiledExpression}

/-- A subtree of a rendered condition is rendered at its place, below the
    nodes that its path passes. -/
theorem renderBelow_nodeAt {d : Condition} {above : Nat} {path : List Nat}
    (h : c.renderBelow encode above ns = .ok out) (hnode : c.nodeAt? path = some d) :
    ∃ part, d.renderBelow encode (above + path.length) (ns.descend path) = .ok part := by
  induction path generalizing c above ns out with
  | nil =>
    rw [Expression.nodeAt?] at hnode
    cases hnode
    exact ⟨out, h⟩
  | cons index path ih =>
    have hlen : above + (index :: path).length = above + 1 + path.length := by
      rw [List.length_cons]
      omega
    rw [hlen, Namespace.descend_cons]
    cases c with
    | leaf p => simp [Expression.nodeAt?] at hnode
    | join left op right =>
      obtain ⟨_, x, hx, y, hy, _⟩ := renderBelow_join_eq_ok_iff.mp h
      obtain _ | _ | index := index
      · exact ih hx hnode
      · exact ih hy hnode
      · simp [Expression.nodeAt?] at hnode
    | negation inner =>
      obtain ⟨_, x, hx, _⟩ := renderBelow_negation_eq_ok_iff.mp h
      obtain _ | index := index
      · exact ih hx hnode
      · simp [Expression.nodeAt?] at hnode

theorem mem_nameEntries_iff {key field : String} :
    (key, field) ∈ c.nameEntries ns ↔
      ∃ path p, c.nodeAt? path = some (.leaf p) ∧
        key = (ns.leafAt path).name ∧ field = p.field := by
  unfold nameEntries
  rw [List.mem_map]
  constructor
  · intro hsited
    obtain ⟨⟨path, p⟩, hsite, heq⟩ := hsited
    cases heq
    exact ⟨path, p, Expression.mem_sites_iff.mp hsite, rfl, rfl⟩
  · intro hplaced
    obtain ⟨path, p, hnode, rfl, rfl⟩ := hplaced
    exact ⟨(path, p), Expression.mem_sites_iff.mpr hnode, rfl⟩

theorem mem_operandEntries_iff {key : String} {operand : Scalar} :
    (key, operand) ∈ c.operandEntries ns ↔
      ∃ path p slot, c.nodeAt? path = some (.leaf p) ∧ (slot, operand) ∈ p.slotted ∧
        key = (ns.leafAt path).operand slot := by
  unfold operandEntries
  rw [List.mem_flatMap]
  constructor
  · intro hsited
    obtain ⟨⟨path, p⟩, hsite, hmem⟩ := hsited
    obtain ⟨⟨slot, value⟩, hslot, heq⟩ := List.mem_map.mp hmem
    cases heq
    exact ⟨path, p, slot, Expression.mem_sites_iff.mp hsite, hslot, rfl⟩
  · intro hplaced
    obtain ⟨path, p, slot, hnode, hslot, rfl⟩ := hplaced
    exact ⟨(path, p), Expression.mem_sites_iff.mpr hnode,
      List.mem_map.mpr ⟨(slot, operand), hslot, rfl⟩⟩

theorem length_nameEntries : (c.nameEntries ns).length = c.leaves.length := by
  simp [nameEntries, Expression.leaves_eq_map_sites]

theorem length_operandEntries :
    (c.operandEntries ns).length = (c.leaves.flatMap Predicate.operands).length := by
  have hsite (site : List Nat × Predicate) :
      (site.2.slotted.map fun slotted =>
        ((ns.leafAt site.1).operand slotted.1, slotted.2)).map (·.2) = site.2.operands := by
    rw [List.map_map]
    exact site.2.map_snd_slotted
  have hoperands : (c.operandEntries ns).map (·.2) = c.leaves.flatMap Predicate.operands := by
    unfold operandEntries
    rw [List.map_flatMap, Expression.leaves_eq_map_sites, List.flatMap_map]
    simp only [hsite]
  rw [← hoperands, List.length_map]

/-- **No leaf is lost, shared or overwritten.** The name table sends the
    placeholder of every leaf's place to the leaf's attribute and holds as
    many entries as there are leaves; the value table sends the placeholder
    of every operand's slot there to the encoded operand and holds as many
    entries as there are operands. At every connective the two tables that
    are united have no placeholder in common. -/
theorem tables_exact (h : c.render encode ns = .ok out) :
    (∀ key field, out.name? key = some field ↔
      ∃ path p, c.nodeAt? path = some (.leaf p) ∧
        key = (ns.leafAt path).name ∧ field = p.field) ∧
    out.names.entries.length = c.leaves.length ∧
    (∀ key value, out.value? key = some value ↔
      ∃ path p slot operand, c.nodeAt? path = some (.leaf p) ∧ (slot, operand) ∈ p.slotted ∧
        key = (ns.leafAt path).operand slot ∧ encode operand = .ok value) ∧
    out.values.entries.length = (c.leaves.flatMap Predicate.operands).length ∧
    ∀ path left op right, c.nodeAt? path = some (.join left op right) →
      ∃ x y, renderBelow encode (path.length + 1) ((ns.descend path).child 0) left = .ok x ∧
        renderBelow encode (path.length + 1) ((ns.descend path).child 1) right = .ok y ∧
        x.names.keys.Disjoint y.names.keys ∧ x.values.keys.Disjoint y.values.keys := by
  obtain ⟨hrendered, _⟩ := render_eq_ok_iff.mp h
  have hnames := hrendered.names_perm
  have hvalues := hrendered.values_perm
  refine ⟨?_, ?_, ?_, ?_, ?_⟩
  · intro key field
    unfold CompiledExpression.name?
    rw [← Table.mem_entries_iff, hnames.mem_iff, mem_nameEntries_iff]
  · rw [hnames.length_eq, length_nameEntries]
  · intro key value
    unfold CompiledExpression.value?
    rw [← Table.mem_entries_iff, ← Rendered.mem_returned_iff, hvalues.mem_iff, List.mem_map]
    constructor
    · intro hreturned
      obtain ⟨⟨_, operand⟩, hentry, heq⟩ := hreturned
      obtain ⟨rfl, henc⟩ := Prod.mk.inj heq
      obtain ⟨path, p, slot, hnode, hslot, hkey⟩ := mem_operandEntries_iff.mp hentry
      exact ⟨path, p, slot, operand, hnode, hslot, hkey, henc⟩
    · intro hplaced
      obtain ⟨path, p, slot, operand, hnode, hslot, hkey, henc⟩ := hplaced
      exact ⟨(key, operand), mem_operandEntries_iff.mpr ⟨path, p, slot, hnode, hslot, hkey⟩,
        by rw [henc]⟩
  · have hlen := hvalues.length_eq
    unfold Rendered.returned at hlen
    rw [List.length_map, List.length_map, length_operandEntries] at hlen
    exact hlen
  · intro path left op right hnode
    unfold render at h
    obtain ⟨part, hpart⟩ := renderBelow_nodeAt h hnode
    rw [Nat.zero_add] at hpart
    obtain ⟨_, x, hx, y, hy, _⟩ := renderBelow_join_eq_ok_iff.mp hpart
    have hleft := (renderBelow_eq_ok_iff.mp hx).1
    have hright := (renderBelow_eq_ok_iff.mp hy).1
    exact ⟨x, y, hx, hy, hleft.names_disjoint hright, hleft.values_disjoint hright⟩

/-- A list of values and a negated range under one connective keep all four
    operands and both attributes. -/
theorem tables_exact_list_and_range :
    ∃ out, render .standard (.root "C")
        (.join (.leaf (.oneOf "a" [.text "x", .boolean true])) .and
          (.negation (.leaf (.between "b" (.text "1") (.text "2"))))) = .ok out ∧
      out.name? "#C_1_0_0" = some "b" ∧ out.value? ":C_0_0I1" = some (.boolean true) ∧
      out.names.entries.length = 2 ∧ out.values.entries.length = 4 := by
  have h : render .standard (.root "C")
      (.join (.leaf (.oneOf "a" [.text "x", .boolean true])) .and
        (.negation (.leaf (.between "b" (.text "1") (.text "2"))))) = .ok _ := rfl
  obtain ⟨hname, hnames, hvalue, hvalues, _⟩ := tables_exact h
  refine ⟨_, h, ?_, ?_, hnames, hvalues⟩
  · exact (hname _ _).mpr ⟨[1, 0], _, rfl, rfl, rfl⟩
  · exact (hvalue _ _).mpr ⟨[0], _, .item 1, .boolean true, rfl, by decide, rfl, rfl⟩

end Condition
end CondExpr
