import CondExpr.Proofs.Coverage

/-! # A condition and a filter in one request

  A request may carry a condition and a filter and merges their tables. All
  placeholders of a compiled expression lie *below* its root token: after
  the sigil comes the token, and after the token an underscore, because even
  a lone predicate is rendered at a child of the root. If a text lies below
  two tokens, then one of them is the other or begins like a namespace below
  it. Accepted options rule out just that, so nothing else matters: not the
  underscores and digits inside the tokens, and not how paths and slots go
  on behind them.
-/

namespace CondExpr

/-! ## Section 1: Tokens -/

theorem isBelow_eq_true_iff {outer inner : String} :
    isBelow outer inner = true ↔
      outer = inner ∨ outer.toList ++ ['_'] <+: inner.toList := by
  simp [isBelow]

private theorem isBelow_of_append {outer inner : String} {added rest rest' : List Char}
    (hinner : inner.toList = outer.toList ++ added) (hrest : '_' :: rest = added ++ '_' :: rest') :
    isBelow outer inner = true := by
  rw [isBelow_eq_true_iff]
  cases added with
  | nil =>
    rw [List.append_nil] at hinner
    exact .inl (String.toList_inj.mp hinner.symm)
  | cons c added =>
    obtain rfl : '_' = c := (List.cons.inj hrest).1
    refine .inr ⟨added, ?_⟩
    rw [hinner, List.append_assoc]
    rfl

/-- Two tokens that an underscore follows in one text overlap. -/
theorem isBelow_of_append_eq {outer inner : String} {rest rest' : List Char}
    (h : outer.toList ++ '_' :: rest = inner.toList ++ '_' :: rest') :
    isBelow outer inner = true ∨ isBelow inner outer = true := by
  -- One token is the other with something added; what is added is nothing,
  -- or begins with the underscore that follows the shorter token.
  rcases List.append_eq_append_iff.mp h with ⟨added, hinner, hrest⟩ | ⟨added, houter, hrest⟩
  · exact .inl (isBelow_of_append hinner hrest)
  · exact .inr (isBelow_of_append houter hrest)

/-! ## Section 2: Placeholders below a token -/

/-- The placeholder of a place below the root with the given token. -/
def LiesBelow (token placeholder : String) : Prop :=
  ∃ sigil rest, placeholder.toList = sigil :: (token.toList ++ '_' :: rest)

/-- No placeholder lies below both tokens of accepted options. -/
theorem not_liesBelow_both {o : Options} (ho : o.check = .ok ()) {placeholder : String}
    (hcondition : LiesBelow o.conditionRoot placeholder) :
    ¬ LiesBelow o.filterRoot placeholder := by
  intro hfilter
  obtain ⟨sigil, rest, htext⟩ := hcondition
  obtain ⟨sigil', rest', htext'⟩ := hfilter
  have htail : o.conditionRoot.toList ++ '_' :: rest = o.filterRoot.toList ++ '_' :: rest' :=
    (List.cons.inj (htext.symm.trans htext')).2
  obtain ⟨_, _, hcf, hfc⟩ := Options.check_eq_ok_iff.mp ho
  rcases isBelow_of_append_eq htail with hbelow | hbelow
  · rw [hbelow] at hcf
    cases hcf
  · rw [hbelow] at hfc
    cases hfc

namespace Namespace

theorem token_leafAt (token : String) (path : List Nat) :
    ∃ rest, ((root token).leafAt path).token.toList = token.toList ++ '_' :: rest := by
  unfold leafAt
  rw [child_descend, token_descend]
  -- The path to a predicate has at least its last step.
  cases path with
  | nil => exact ⟨_, rfl⟩
  | cons index path => exact ⟨_, rfl⟩

theorem liesBelow_name_leafAt (token : String) (path : List Nat) :
    LiesBelow token ((root token).leafAt path).name := by
  obtain ⟨rest, htoken⟩ := token_leafAt token path
  refine ⟨'#', rest, ?_⟩
  rw [toList_name, htoken]

theorem liesBelow_operand_leafAt (token : String) (path : List Nat) (slot : Slot) :
    LiesBelow token (((root token).leafAt path).operand slot) := by
  obtain ⟨rest, htoken⟩ := token_leafAt token path
  refine ⟨':', rest ++ slot.suffix.toList, ?_⟩
  rw [toList_operand, htoken]
  simp

end Namespace

namespace Rendered

variable {encode : Encoder} {token : String} {c : Condition} {out : CompiledExpression}

/-- All that a condition puts into text and tables lies below its root. -/
theorem liesBelow_leaf {leaf : Namespace × Shape} (h : leaf ∈ (c.layout (.root token)).leaves) :
    LiesBelow token leaf.1.name ∧ ∀ slot, LiesBelow token (leaf.1.operand slot) := by
  rw [Condition.leaves_layout] at h
  obtain ⟨⟨path, p⟩, _, rfl⟩ := List.mem_map.mp h
  exact ⟨Namespace.liesBelow_name_leafAt token path, Namespace.liesBelow_operand_leafAt token path⟩

theorem liesBelow_names (h : Rendered encode (.root token) c out) :
    ∀ key ∈ out.names.keys, LiesBelow token key := by
  intro key hkey
  rw [h.names_keys_perm.mem_iff] at hkey
  obtain ⟨leaf, hleaf, rfl⟩ := List.mem_map.mp hkey
  exact (liesBelow_leaf hleaf).1

theorem liesBelow_values (h : Rendered encode (.root token) c out) :
    ∀ key ∈ out.values.keys, LiesBelow token key := by
  intro key hkey
  rw [h.values_keys_perm.mem_iff] at hkey
  obtain ⟨leaf, hleaf, hslot⟩ := List.mem_flatMap.mp hkey
  obtain ⟨slot, _, rfl⟩ := List.mem_map.mp hslot
  exact (liesBelow_leaf hleaf).2 slot

/-- The same holds of what the scanner finds in the text. -/
theorem liesBelow_found (htoken : isRootToken token = true)
    (h : Rendered encode (.root token) c out) :
    ∀ found ∈ placeholdersIn out.expression.toList, LiesBelow token (.ofList found) := by
  intro found hfound
  have hkey : (String.ofList found).toList ∈ placeholdersIn out.expression.toList := by
    rw [String.toList_ofList]
    exact hfound
  obtain ⟨leaf, hleaf, hwhich⟩ :=
    (toList_mem_placeholdersIn_iff (Namespace.wellFormed_root htoken) h).mp hkey
  rcases hwhich with hname | ⟨slot, _, hoperand⟩
  · rw [hname]
    exact (liesBelow_leaf hleaf).1
  · rw [hoperand]
    exact (liesBelow_leaf hleaf).2 slot

end Rendered

/-! ## Section 3: Requests -/

namespace Compiler

/-- What is compiled under the compiler's own tokens is rendered there. -/
theorem rendered_condition {compiler : Compiler} {c : Condition} {x : CompiledExpression}
    (h : compiler.condition c = .ok x) :
    Rendered compiler.encode (.root compiler.options.conditionRoot) c x := by
  obtain ⟨_, hrender⟩ := conditionUnder_eq_ok_iff.mp h
  exact (Condition.render_eq_ok_iff.mp hrender).1

theorem rendered_filter {compiler : Compiler} {f : Filter} {x : CompiledExpression}
    (h : compiler.filter f = .ok x) :
    Rendered compiler.encode (.root compiler.options.filterRoot) f.widen x := by
  unfold filter at h
  rw [filterUnder_eq] at h
  obtain ⟨_, hrender⟩ := conditionUnder_eq_ok_iff.mp h
  exact (Condition.render_eq_ok_iff.mp hrender).1

/-- **No clash.** Under accepted options, whatever the encoders, a condition
    and a filter that are compiled under their root tokens share no name
    placeholder and no value placeholder, and no placeholder that is found
    in the one text is found in the other. So the united tables hold every
    entry of both, and nothing else. -/
theorem request_separated {o : Options} {encode encode' : Encoder} {c : Condition} {f : Filter}
    {x y : CompiledExpression} (ho : o.check = .ok ())
    (hc : (Compiler.mk o encode ho).condition c = .ok x)
    (hf : (Compiler.mk o encode' ho).filter f = .ok y) :
    x.names.keys.Disjoint y.names.keys ∧ x.values.keys.Disjoint y.values.keys ∧
      (placeholdersIn x.expression.toList).Disjoint (placeholdersIn y.expression.toList) ∧
      (x.names.union y.names).entries.Perm (x.names.entries ++ y.names.entries) ∧
      (x.values.union y.values).entries.Perm (x.values.entries ++ y.values.entries) := by
  obtain ⟨hcondition, hfilter, _⟩ := Options.check_eq_ok_iff.mp ho
  have hx := rendered_condition hc
  have hy := rendered_filter hf
  have hnames : x.names.keys.Disjoint y.names.keys := by
    intro key hkey hkey'
    exact not_liesBelow_both ho (hx.liesBelow_names key hkey) (hy.liesBelow_names key hkey')
  have hvalues : x.values.keys.Disjoint y.values.keys := by
    intro key hkey hkey'
    exact not_liesBelow_both ho (hx.liesBelow_values key hkey) (hy.liesBelow_values key hkey')
  refine ⟨hnames, hvalues, ?_, Table.entries_union_perm_of_disjoint hnames,
    Table.entries_union_perm_of_disjoint hvalues⟩
  intro found hfound hfound'
  exact not_liesBelow_both ho (hx.liesBelow_found hcondition found hfound)
    (hy.liesBelow_found hfilter found hfound')

/-- The filter's token extends the condition's by a letter that is also a
    suffix, and a path goes on behind both. -/
theorem request_separated_extended_token :
    ∃ x y, ∃ accepted : Options.check ⟨"C_1", "C_1L", false⟩ = .ok (),
      (Compiler.mk ⟨"C_1", "C_1L", false⟩ .standard accepted).condition
        (.leaf (.between "age" (.text "1") (.text "2"))) = .ok x ∧
      (Compiler.mk ⟨"C_1", "C_1L", false⟩ .standard accepted).filter
        (.negation (.leaf (.compare "age" .eq (.text "1")))) = .ok y ∧
      x.expression = "#C_1_0 BETWEEN :C_1_0_L AND :C_1_0_R" ∧
      y.expression = "NOT (#C_1L_0_0 = :C_1L_0_0)" ∧
      x.names.keys.Disjoint y.names.keys ∧ x.values.keys.Disjoint y.values.keys := by
  have accepted : Options.check ⟨"C_1", "C_1L", false⟩ = .ok () := by decide +kernel
  obtain ⟨hcondition, hfilter, _⟩ := Options.check_eq_ok_iff.mp accepted
  have hc : (Compiler.mk ⟨"C_1", "C_1L", false⟩ .standard accepted).condition
      (.leaf (.between "age" (.text "1") (.text "2"))) = .ok _ :=
    conditionUnder_eq_ok_iff.mpr ⟨hcondition, rfl⟩
  have hf : (Compiler.mk ⟨"C_1", "C_1L", false⟩ .standard accepted).filter
      (.negation (.leaf (.compare "age" .eq (.text "1")))) = .ok _ :=
    conditionUnder_eq_ok_iff.mpr ⟨hfilter, rfl⟩
  obtain ⟨hnames, hvalues, _⟩ := request_separated accepted hc hf
  exact ⟨_, _, accepted, hc, hf, rfl, rfl, hnames, hvalues⟩

end Compiler
end CondExpr
