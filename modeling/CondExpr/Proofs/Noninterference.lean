import CondExpr.Proofs.Entries

/-! # No data in the text

  Two conditions with the same skeleton may differ in every attribute name
  and every operand, and may be rendered with different encoders. Their
  texts are the same all the same, and so are the placeholders in their
  tables: both are read off the layout, which is made from the skeleton and
  the namespace. So no attribute name and no operand, whatever it is made
  of, gets into the text.
-/

namespace CondExpr.Condition

variable {encode encode' : Encoder} {ns : Namespace} {c d : Condition} {x y : CompiledExpression}

theorem layout_eq_of_skeleton_eq (hskeleton : c.skeleton = d.skeleton) :
    c.layout ns = d.layout ns := by
  unfold layout
  rw [hskeleton]

/-- Beside the attribute names, only the layout goes into the name entries. -/
theorem nameEntries_eq_zip :
    c.nameEntries ns =
      ((c.layout ns).leaves.map fun leaf => leaf.1.name).zip (c.leaves.map Predicate.field) := by
  rw [leaves_layout, Expression.leaves_eq_map_sites, List.map_map, List.map_map, List.zip_map']
  rfl

/-- **No data reaches the text.** Whatever attributes and operands two
    conditions with one skeleton have, and whatever encoders they are
    rendered with, the texts are equal and the tables have the same keys. If
    the attributes agree leaf by leaf, the name tables are equal. -/
theorem render_data_free (hskeleton : c.skeleton = d.skeleton) (hc : c.render encode ns = .ok x)
    (hd : d.render encode' ns = .ok y) :
    x.expression = y.expression ∧ x.names.keys = y.names.keys ∧ x.values.keys = y.values.keys ∧
      (c.leaves.map Predicate.field = d.leaves.map Predicate.field → x.names = y.names) := by
  have hx := (render_eq_ok_iff.mp hc).1
  have hy := (render_eq_ok_iff.mp hd).1
  have hlayout : c.layout ns = d.layout ns := layout_eq_of_skeleton_eq hskeleton
  refine ⟨?_, ?_, ?_, ?_⟩
  · rw [hx.expression_eq, hy.expression_eq, hlayout]
  · apply Table.keys_eq_of_mem_iff
    intro key
    rw [hx.names_keys_perm.mem_iff, hy.names_keys_perm.mem_iff, hlayout]
  · apply Table.keys_eq_of_mem_iff
    intro key
    rw [hx.values_keys_perm.mem_iff, hy.values_keys_perm.mem_iff, hlayout]
  · intro hfields
    have hentries : c.nameEntries ns = d.nameEntries ns := by
      rw [nameEntries_eq_zip, nameEntries_eq_zip, hlayout, hfields]
    have hnames := hx.names_perm
    rw [hentries] at hnames
    exact Table.eq_of_perm (hnames.trans hy.names_perm.symm)

/-- Hostile attributes and operands leave the text as it is. -/
theorem render_data_free_hostile :
    ∃ x y,
      render .standard (.root "C") (.join (.leaf (.compare "age" .eq (.text "1"))) .or
        (.leaf (.oneOf "tag" [.text "a", .text "b"]))) = .ok x ∧
      render .standard (.root "C") (.join (.leaf (.compare "#C_1_0 = :x) OR (" .eq (.text "') --")))
        .or (.leaf (.oneOf ":C_0_0" [.boolean true, .text "IN (#, :)"]))) = .ok y ∧
      x.expression = y.expression ∧ x.names.keys = y.names.keys ∧
      x.values.keys = y.values.keys := by
  have hc : render .standard (.root "C") (.join (.leaf (.compare "age" .eq (.text "1"))) .or
      (.leaf (.oneOf "tag" [.text "a", .text "b"]))) = .ok _ := rfl
  have hd : render .standard (.root "C")
      (.join (.leaf (.compare "#C_1_0 = :x) OR (" .eq (.text "') --"))) .or
        (.leaf (.oneOf ":C_0_0" [.boolean true, .text "IN (#, :)"]))) = .ok _ := rfl
  obtain ⟨htext, hnames, hvalues, _⟩ := render_data_free (by rfl) hc hd
  exact ⟨_, _, hc, hd, htext, hnames, hvalues⟩

end CondExpr.Condition
