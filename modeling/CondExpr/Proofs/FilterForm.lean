import CondExpr.Proofs.Narrowing
import CondExpr.Proofs.StoredText

/-! # Filters among stored conditions

  The stored forms of filters are the stored forms of the conditions that
  narrow. A predicate of a filter is decoded from just the values that the
  predicate of the same operator and fields is decoded from, whatever form
  these come in, and no predicate of another operator is decoded from them.
  Trees follow by induction on their nesting.
-/

namespace CondExpr

/-! ## Section 1: Predicates -/

/-- The name of the type only words the messages of `splitTag`. -/
theorem splitTag_eq_ok_iff {typeName other key : String} {v : Json} {out : String × Json} :
    splitTag typeName key v = .ok out ↔ splitTag other key v = .ok out := by
  unfold splitTag
  split
  · rfl
  · rfl
  · rfl
  · rfl
  · simp [wrongType]

section Predicates

variable {typeName other : String} {v : Json}

/-- Comparisons are decoded from the same values for all types. -/
theorem decodeCompare_eq_ok_iff {out : String × Comparator × Scalar} :
    decodeCompare typeName v = .ok out ↔ decodeCompare other v = .ok out :=
  decodeRecord3_eq_ok_iff.trans decodeRecord3_eq_ok_iff.symm

theorem decodeBetween_eq_ok_iff {out : String × Scalar × Scalar} :
    decodeBetween typeName v = .ok out ↔ decodeBetween other v = .ok out :=
  decodeRecord3_eq_ok_iff.trans decodeRecord3_eq_ok_iff.symm

theorem decodeBeginsWith_eq_ok_iff {out : String × String} :
    decodeBeginsWith typeName v = .ok out ↔ decodeBeginsWith other v = .ok out :=
  decodeRecord2_eq_ok_iff.trans decodeRecord2_eq_ok_iff.symm

end Predicates

theorem FilterPredicate.widen_injective : Function.Injective FilterPredicate.widen := by
  intro q q' h
  have hnarrow : q'.widen.narrow = .ok q := Predicate.narrow_eq_ok_iff.mpr h
  rw [Predicate.narrow_eq_ok_iff.mpr rfl] at hnarrow
  exact (Except.ok.inj hnarrow).symm

section Building

variable {α : Type} {x x' : Except DecodeError α}

/-- From the same parts a filter builds what the condition builds from them. -/
theorem bind_eq_ok_widen_iff {build : α → FilterPredicate} {build' : α → Predicate}
    (hparts : ∀ a, x = .ok a ↔ x' = .ok a) (hbuild : ∀ a, (build a).widen = build' a)
    (q : FilterPredicate) :
    (do return build (← x)) = .ok q ↔ (do return build' (← x')) = .ok q.widen := by
  simp only [bind_eq_ok_iff, pure_eq_ok_iff, hparts, ← hbuild,
    FilterPredicate.widen_injective.eq_iff]

/-- What is built into a predicate that no filter can hold is not what one
    of a filter widens to. -/
theorem bind_ne_ok_widen {build : α → Predicate} (hbuild : ∀ a, (build a).isFilterable = false)
    (q : FilterPredicate) : (do return build (← x)) ≠ .ok q.widen := by
  intro h
  obtain ⟨a, -, hpure⟩ := bind_eq_ok_iff.mp h
  have hwiden : q.widen.isFilterable = true := by cases q <;> rfl
  rw [pure_eq_ok_iff.mp hpure, hbuild a] at hwiden
  cases hwiden

end Building

/-- A predicate of a filter is decoded from the values that the predicate it
    widens to is decoded from. -/
theorem FilterPredicate.decode_eq_ok_iff {v : Json} {q : FilterPredicate} :
    FilterPredicate.decode v = .ok q ↔ Predicate.decode v = .ok q.widen := by
  unfold FilterPredicate.decode Predicate.decode
  rw [bind_eq_ok_iff, bind_eq_ok_iff]
  refine exists_congr fun tag => and_congr splitTag_eq_ok_iff ?_
  obtain ⟨name, fields⟩ := tag
  dsimp only
  -- The operators of filters come first in both, in the same order.
  split
  · exact bind_eq_ok_widen_iff (fun _ => decodeCompare_eq_ok_iff) (fun _ => rfl) q
  · exact bind_eq_ok_widen_iff (fun _ => decodeBetween_eq_ok_iff) (fun _ => rfl) q
  · exact bind_eq_ok_widen_iff (fun _ => decodeBeginsWith_eq_ok_iff) (fun _ => rfl) q
  · rename_i hcompare hbetween hbegins
    simp only [reduceCtorEq, false_iff]
    split
    · exact absurd rfl hcompare
    · exact absurd rfl hbetween
    · exact absurd rfl hbegins
    · exact bind_ne_ok_widen (fun _ => rfl) q
    · exact bind_ne_ok_widen (fun _ => rfl) q
    · exact bind_ne_ok_widen (fun _ => rfl) q
    · exact bind_ne_ok_widen (fun _ => rfl) q
    · exact bind_ne_ok_widen (fun _ => rfl) q
    · simp

/-! ## Section 2: Trees -/

/-- What must be the value of a variant is decoded as the value alone is. -/
theorem decodeVariantValue_eq_ok_iff {α β : Type} {decode : Decoder α} {decode' : Decoder β}
    {value : Option Json} {a : α} {b : β}
    (h : ∀ v, decode v = .ok a ↔ decode' v = .ok b) :
    decodeVariantValue decode value = .ok a ↔ decodeVariantValue decode' value = .ok b := by
  cases value with
  | none => simp [decodeVariantValue]
  | some v => exact h v

namespace Expression

section Trees

variable {Leaf Other : Type} {origin : Origin} {v : Json}

/-- A connective is decoded when its value is a record, as an array only in
    text, of two operands and a token. -/
theorem decodeJoin_eq_ok_iff {decodeOperand : Decoder (Expression Leaf)} {e : Expression Leaf} :
    decodeJoin origin decodeOperand (some v) = .ok e ↔
      ∃ left op right, e = .join left op right ∧
        ¬ (origin = .value ∧ v matches .array _) ∧ v.HasFields 3 ∧
        Field.Holds ⟨"left", decodeOperand⟩ 0 v left ∧
        Field.Holds ⟨"op", Connective.decode⟩ 1 v op ∧
        Field.Holds ⟨"right", decodeOperand⟩ 2 v right := by
  unfold decodeJoin wrongType
  rw [ite_error_eq_ok_iff, bind_eq_ok_iff]
  simp only [Prod.exists, decodeRecord3_eq_ok_iff, pure_eq_ok_iff]
  constructor
  · intro h
    obtain ⟨horigin, left, op, right, hparts, heq⟩ := h
    exact ⟨left, op, right, heq, horigin, hparts⟩
  · intro h
    obtain ⟨left, op, right, heq, horigin, hparts⟩ := h
    exact ⟨horigin, left, op, right, hparts, heq⟩

variable {leaf : Leaf → Other}

theorem decodeJoin_map_iff {decodeOperand : Decoder (Expression Leaf)}
    {decodeOperand' : Decoder (Expression Other)}
    (hoperand : ∀ v e, decodeOperand v = .ok e ↔ decodeOperand' v = .ok (e.map leaf))
    {value : Option Json} {e : Expression Leaf} :
    decodeJoin origin decodeOperand value = .ok e ↔
      decodeJoin origin decodeOperand' value = .ok (e.map leaf) := by
  cases value with
  | none => simp [decodeJoin]
  | some v =>
    rw [decodeJoin_eq_ok_iff, decodeJoin_eq_ok_iff]
    cases e <;> simp [Expression.map, Field.Holds, hoperand]

/-- Trees are decoded leaf by leaf. -/
theorem decodeWithin_map_iff {decodeLeaf : Decoder Leaf} {decodeLeaf' : Decoder Other}
    (hleaf : ∀ v p, decodeLeaf v = .ok p ↔ decodeLeaf' v = .ok (leaf p)) (fuel : Nat) :
    ∀ v e, decodeWithin origin decodeLeaf fuel v = .ok e ↔
      decodeWithin origin decodeLeaf' fuel v = .ok (e.map leaf) := by
  induction fuel with
  | zero =>
    intro v e
    simp [decodeWithin, wrongType]
  | succ fuel ih =>
    intro v e
    unfold decodeWithin
    rw [bind_eq_ok_iff, bind_eq_ok_iff]
    refine exists_congr fun parts => and_congr_right fun _ => ?_
    obtain ⟨name, value⟩ := parts
    dsimp only
    split
    · simp only [bind_eq_ok_iff, pure_eq_ok_iff]
      cases e <;> simp [Expression.map, decodeVariantValue_eq_ok_iff (hleaf · _)]
    · exact decodeJoin_map_iff ih
    · simp only [bind_eq_ok_iff, pure_eq_ok_iff]
      cases e <;> simp [Expression.map, decodeVariantValue_eq_ok_iff (ih · _)]
    · simp

end Trees

end Expression

/-- A filter is decoded from the values that the condition it widens to is
    decoded from. -/
theorem Filter.decode_eq_ok_iff {origin : Origin} {v : Json} {f : Filter} :
    Filter.decode origin v = .ok f ↔ Condition.decode origin v = .ok f.widen :=
  Expression.decodeWithin_map_iff (fun _ _ => FilterPredicate.decode_eq_ok_iff) _ v f

/-! ## Section 3: Filters and conditions -/

theorem Expression.toJson_map {Leaf Other : Type} {leaf : Leaf → Other} {leafToJson : Leaf → Json}
    {otherToJson : Other → Json} (hleaf : ∀ p, otherToJson (leaf p) = leafToJson p)
    (e : Expression Leaf) : (e.map leaf).toJson otherToJson = e.toJson leafToJson := by
  induction e with
  | leaf p => rw [map, toJson, toJson, hleaf]
  | join left op right ihleft ihright => rw [map, toJson, toJson, ihleft, ihright]
  | negation inner ih => rw [map, toJson, toJson, ih]

theorem Filter.toJson_widen (f : Filter) : f.widen.toJson = f.toJson :=
  Expression.toJson_map CondExpr.toJson_widen f

theorem Filter.ofText_eq_ok_iff {text : String} {f : Filter} :
    Filter.ofText text = .ok f ↔ Condition.ofText text = .ok f.widen := by
  unfold Filter.ofText Condition.ofText
  rw [decodeTextAs_eq_ok_iff, decodeTextAs_eq_ok_iff]
  exact exists_congr fun v => and_congr_right fun _ => Filter.decode_eq_ok_iff

/-- Of a condition and a filter that come from the same place, the condition
    narrows to the filter. -/
theorem narrow_eq_ok_iff_of_widen {ε : Type} {result : Except ε Condition}
    {narrowed : Except ε Filter} (h : ∀ f, narrowed = .ok f ↔ result = .ok f.widen)
    {c : Condition} (hc : result = .ok c) (f : Filter) :
    narrowed = .ok f ↔ c.narrow = .ok f := by
  rw [h, hc, Condition.narrow_eq_ok_iff, Except.ok.injEq, eq_comm]

/-- **The stored filters are the stored conditions that narrow.** A filter
    is stored as the condition it widens to. Every JSON value that is decoded
    as a filter is decoded as the condition this filter widens to, and where
    a condition is decoded, a filter is decoded just if the condition narrows,
    and it is what the condition narrows to. The same holds of texts. -/
theorem stored_filter_iff_narrow :
    (∀ f : Filter, f.toJson = f.widen.toJson ∧ f.toJson.compact = f.widen.toJson.compact) ∧
    (∀ (origin : Origin) (v : Json),
      (∀ f, Filter.decode origin v = .ok f → Condition.decode origin v = .ok f.widen) ∧
      ∀ c, Condition.decode origin v = .ok c →
        ∀ f, Filter.decode origin v = .ok f ↔ c.narrow = .ok f) ∧
    ∀ text : String,
      (∀ f, Filter.ofText text = .ok f → Condition.ofText text = .ok f.widen) ∧
      ∀ c, Condition.ofText text = .ok c →
        ∀ f, Filter.ofText text = .ok f ↔ c.narrow = .ok f := by
  refine ⟨?_, ?_, ?_⟩
  · intro f
    exact ⟨f.toJson_widen.symm, congrArg Json.compact f.toJson_widen.symm⟩
  · intro origin v
    exact ⟨fun f => Filter.decode_eq_ok_iff.mp,
      fun c hc => narrow_eq_ok_iff_of_widen (fun _ => Filter.decode_eq_ok_iff) hc⟩
  · intro text
    exact ⟨fun f => Filter.ofText_eq_ok_iff.mp,
      fun c hc => narrow_eq_ok_iff_of_widen (fun _ => Filter.ofText_eq_ok_iff) hc⟩

/-- Predicates as arrays and with members that are no fields, below a
    connective in the form of an array, and a size test to the right. -/
theorem stored_filter_iff_narrow_arrays :
    let between : Json := variant "Condition" (.array [.text "between", .text "age",
      variant "Number" (.integer 30), variant "Number" (.integer 39)])
    let begins : Json := variant "Condition" (.object [("note", .null), ("prefix", .text "la"),
      ("field", .text "name"), ("operator", .text "begins_with")])
    let size : Json := variant "Condition" (.array [.text "size", .text "tags", .text "<=",
      .integer 2])
    let joined (right : Json) : Json := variant "Logic" (.array [between, .text "AND", right])
    let f : Filter := .join (.leaf (.between "age" (.ofInt 30) (.ofInt 39))) .and
      (.negation (.leaf (.beginsWith "name" "la")))
    Filter.decode .text (joined (variant "Not" begins)) = .ok f ∧
      Condition.decode .text (joined (variant "Not" begins)) = .ok f.widen ∧
      (∃ c, Condition.decode .text (joined size) = .ok c) ∧
      ∀ f, Filter.decode .text (joined size) ≠ .ok f := by
  intro between begins size joined f
  obtain ⟨-, hvalues, -⟩ := stored_filter_iff_narrow
  obtain ⟨hwiden, -⟩ := hvalues .text (joined (variant "Not" begins))
  obtain ⟨-, hnarrow⟩ := hvalues .text (joined size)
  have hfilter : Filter.decode .text (joined (variant "Not" begins)) = .ok f := by rfl
  have hcondition : Condition.decode .text (joined size) = .ok (.join
      (.leaf (.between "age" (.ofInt 30) (.ofInt 39))) .and
      (.leaf (.size "tags" .le (.ofInt 2)))) := by rfl
  refine ⟨hfilter, hwiden f hfilter, ⟨_, hcondition⟩, ?_⟩
  intro g hg
  cases (hnarrow _ hcondition g).mp hg

end CondExpr
