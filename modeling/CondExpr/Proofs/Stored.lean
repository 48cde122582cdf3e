import CondExpr.Proofs.InstantText
import CondExpr.Proofs.Layout
import CondExpr.Proofs.Record
import CondExpr.Proofs.Table
import CondExpr.Stored.Decode

/-! # Stored forms are read back

  A stored form can come back in two arrangements: with its members in the
  order in which they were written, as a text has them, or sorted by key, as
  a decoded value has them. Records look their fields up by name, so neither
  the order of the fields nor that of the entries of a table matters, and
  decoding gives the stored value back in every arrangement. Dates come back
  as they are shown, which is as they were unless a leap second does not end
  a minute.
-/

namespace CondExpr

/-! ## Section 1: Arrangements -/

/-- A way of ordering the members of an object. -/
structure Arrangement where
  /-- Puts members in order. -/
  order : List (String × Json) → List (String × Json)
  /-- No member with a key of its own gets lost or is added. -/
  order_perm : ∀ members, (members.map (·.1)).Nodup → (order members).Perm members

namespace Arrangement

/-- Members as they are written. -/
def written : Arrangement := ⟨id, fun _ _ => .refl _⟩

/-- Members by their keys. -/
def sorted : Arrangement :=
  ⟨fun members => (Table.ofList members).entries, fun _ => Table.entries_ofList_perm⟩

theorem order_singleton (a : Arrangement) (member : String × Json) :
    a.order [member] = [member] :=
  List.perm_singleton.mp (a.order_perm [member] (List.nodup_singleton _))

end Arrangement

namespace Json

section

variable (a : Arrangement)

mutual

/-- The value with the members of all its objects put in order. -/
def arranged : Json → Json
  | .array items => .array (arrangedItems items)
  | .object members => .object (a.order (arrangedMembers members))
  | v => v

/-- The items of an array, arranged. -/
def arrangedItems : List Json → List Json
  | [] => []
  | item :: rest => item.arranged :: arrangedItems rest

/-- The members of an object, arranged, in their own order. -/
def arrangedMembers : List (String × Json) → List (String × Json)
  | [] => []
  | (key, value) :: rest => (key, value.arranged) :: arrangedMembers rest

end

end

theorem arrangedItems_eq_map (a : Arrangement) (items : List Json) :
    arrangedItems a items = items.map (arranged a) := by
  induction items with
  | nil => rfl
  | cons item items ih => rw [arrangedItems, List.map_cons, ih]

theorem arrangedMembers_eq_map (a : Arrangement) (members : List (String × Json)) :
    arrangedMembers a members = members.map fun member => (member.1, member.2.arranged a) := by
  induction members with
  | nil => rfl
  | cons member members ih => rw [arrangedMembers, List.map_cons, ih]

mutual

theorem arranged_written : ∀ v : Json, v.arranged .written = v
  | .array items => congrArg Json.array (arrangedItems_written items)
  | .object members => congrArg Json.object (arrangedMembers_written members)
  | .null | .boolean _ | .integer _ | .real _ | .text _ => rfl

theorem arrangedItems_written : ∀ items : List Json, arrangedItems .written items = items
  | [] => rfl
  | item :: items => by rw [arrangedItems, arranged_written item, arrangedItems_written items]

theorem arrangedMembers_written : ∀ members : List (String × Json),
    arrangedMembers .written members = members
  | [] => rfl
  | (key, value) :: members => by
    rw [arrangedMembers, arranged_written value, arrangedMembers_written members]

end

mutual

theorem arranged_sorted : ∀ v : Json, v.arranged .sorted = v.decoded
  | .array items => congrArg Json.array (arrangedItems_sorted items)
  | .object members =>
    congrArg (fun members => Json.object (Table.ofList members).entries)
      (arrangedMembers_sorted members)
  | .null | .boolean _ | .integer _ | .real _ | .text _ => rfl

theorem arrangedItems_sorted : ∀ items : List Json, arrangedItems .sorted items = decodedItems items
  | [] => rfl
  | item :: items => by
    rw [arrangedItems, arranged_sorted item, arrangedItems_sorted items, decodedItems]

theorem arrangedMembers_sorted : ∀ members : List (String × Json),
    arrangedMembers .sorted members = decodedMembers members
  | [] => rfl
  | (key, value) :: members => by
    rw [arrangedMembers, arranged_sorted value, arrangedMembers_sorted members, decodedMembers]

end

end Json

namespace Json

/-- A member is no higher than its object is inside. -/
theorem height_le_heightOfMembers {members : List (String × Json)} {key : String} {v : Json}
    (hmem : (key, v) ∈ members) : v.height ≤ heightOfMembers members := by
  induction members with
  | nil => cases hmem
  | cons first members ih =>
    obtain ⟨key', v'⟩ := first
    rw [heightOfMembers]
    rcases List.mem_cons.mp hmem with heq | hmem
    · cases heq
      exact Nat.le_max_left _ _
    · exact Nat.le_trans (ih hmem) (Nat.le_max_right _ _)

end Json

/-! ## Section 2: Records -/

/-- Among members with distinct keys one is found by its key. -/
theorem filter_key_eq {members : List (String × Json)} (hdistinct : (members.map (·.1)).Nodup)
    {key : String} {v : Json} (hmem : (key, v) ∈ members) :
    members.filter (·.1 = key) = [(key, v)] := by
  induction members with
  | nil => cases hmem
  | cons member members ih =>
    rw [List.map_cons, List.nodup_cons] at hdistinct
    obtain ⟨hfresh, hdistinct⟩ := hdistinct
    rcases List.mem_cons.mp hmem with rfl | hmem
    · have hnone : members.filter (·.1 = key) = [] := by
        rw [List.filter_eq_nil_iff]
        intro other hother heq
        exact hfresh (List.mem_map.mpr ⟨other, hother, of_decide_eq_true heq⟩)
      rw [List.filter_cons, if_pos (decide_eq_true rfl), hnone]
    · have hne : member.1 ≠ key := by
        intro heq
        exact hfresh (List.mem_map.mpr ⟨_, hmem, heq.symm⟩)
      rw [List.filter_cons_of_neg (by simpa using hne), ih hdistinct hmem]

section Records

variable {α β γ : Type} {kind : RecordKind} {f : Field α} {g : Field β} {h : Field γ}
  {members : List (String × Json)} {va vb vc : Json} {a : α} {b : β} {c : γ}

theorem Field.member?_eq (hdistinct : (members.map (·.1)).Nodup) (hmem : (f.name, va) ∈ members)
    (ha : f.decode va = .ok a) : f.member? members = .ok (some a) := by
  unfold Field.member?
  rw [filter_key_eq hdistinct hmem]
  dsimp only
  rw [ha]
  rfl

/-- An object of distinct members holds what its members are decoded as. -/
theorem Field.holds_of_mem {index : Nat} (hdistinct : (members.map (·.1)).Nodup)
    (hmem : (f.name, va) ∈ members) (ha : f.decode va = .ok a) :
    f.Holds index (.object members) a :=
  (Field.member?_eq_ok_some_iff index).mp (Field.member?_eq hdistinct hmem ha)

theorem decodeRecord1_of_perm (hperm : members.Perm [(f.name, va)]) (ha : f.decode va = .ok a) :
    decodeRecord1 kind f (.object members) = .ok a := by
  obtain rfl := List.perm_singleton.mp hperm
  exact decodeRecord1_eq_ok_iff.mpr
    ⟨trivial, Field.holds_of_mem (List.nodup_singleton f.name) List.mem_cons_self ha⟩

/-- A record is decoded from its fields in any order. -/
theorem decodeRecord2_of_perm (hperm : members.Perm [(f.name, va), (g.name, vb)])
    (hdistinct : [f.name, g.name].Nodup) (ha : f.decode va = .ok a) (hb : g.decode vb = .ok b) :
    decodeRecord2 kind f g (.object members) = .ok (a, b) := by
  have hkeys : (members.map (·.1)).Nodup := (hperm.map _).nodup_iff.mpr hdistinct
  exact decodeRecord2_eq_ok_iff.mpr
    ⟨trivial, Field.holds_of_mem hkeys (hperm.mem_iff.mpr (by simp)) ha,
      Field.holds_of_mem hkeys (hperm.mem_iff.mpr (by simp)) hb⟩

theorem decodeRecord3_of_perm (hperm : members.Perm [(f.name, va), (g.name, vb), (h.name, vc)])
    (hdistinct : [f.name, g.name, h.name].Nodup) (ha : f.decode va = .ok a)
    (hb : g.decode vb = .ok b) (hc : h.decode vc = .ok c) :
    decodeRecord3 kind f g h (.object members) = .ok (a, b, c) := by
  have hkeys : (members.map (·.1)).Nodup := (hperm.map _).nodup_iff.mpr hdistinct
  exact decodeRecord3_eq_ok_iff.mpr
    ⟨trivial, Field.holds_of_mem hkeys (hperm.mem_iff.mpr (by simp)) ha,
      Field.holds_of_mem hkeys (hperm.mem_iff.mpr (by simp)) hb,
      Field.holds_of_mem hkeys (hperm.mem_iff.mpr (by simp)) hc⟩

/-- The operator of a predicate is found among its fields and taken out. -/
theorem splitTag_of_perm {typeName key name : String} {fields : List (String × Json)}
    (hperm : members.Perm ((key, .text name) :: fields))
    (hdistinct : (key :: fields.map (·.1)).Nodup) :
    ∃ rest, splitTag typeName key (.object members) = .ok (name, .object rest) ∧
      rest.Perm fields := by
  have hkeys : (members.map (·.1)).Nodup := (hperm.map _).nodup_iff.mpr hdistinct
  have hmem : (key, Json.text name) ∈ members := hperm.mem_iff.mpr List.mem_cons_self
  refine ⟨members.filter (·.1 ≠ key), ?_, ?_⟩
  · unfold splitTag
    simp only [filter_key_eq hkeys hmem]
  · have hfields : ((key, Json.text name) :: fields).filter (·.1 ≠ key) = fields := by
      rw [List.filter_cons_of_neg (by simp), List.filter_eq_self]
      intro field hfield
      have hne : field.1 ≠ key := by
        intro heq
        exact (List.nodup_cons.mp hdistinct).1 (List.mem_map.mpr ⟨field, hfield, heq⟩)
      exact decide_eq_true hne
    rw [← hfields]
    exact hperm.filter _

end Records

/-! ## Section 3: Dates as they are shown -/

/-- The operand, with its date as it is shown. -/
def Scalar.asShown : Scalar → Scalar
  | .date t => .date t.asShown
  | s => s

/-- The predicate, with its dates as they are shown. -/
def Predicate.asShown : Predicate → Predicate
  | .compare field op value => .compare field op value.asShown
  | .between field low high => .between field low.asShown high.asShown
  | .contains field value => .contains field value.asShown
  | .oneOf field values => .oneOf field (values.map Scalar.asShown)
  | p => p

/-- The predicate of a filter, with its dates as they are shown. -/
def FilterPredicate.asShown : FilterPredicate → FilterPredicate
  | .compare field op value => .compare field op value.asShown
  | .between field low high => .between field low.asShown high.asShown
  | p => p

/-- The condition, with its dates as they are shown. -/
def Condition.asShown (c : Condition) : Condition := c.map Predicate.asShown

/-- The filter, with its dates as they are shown. -/
def Filter.asShown (f : Filter) : Filter := f.map FilterPredicate.asShown

/-- The instant that an operand is. -/
def Scalar.date? : Scalar → Option Instant
  | .date t => some t
  | _ => none

/-- The dates among the operands of a predicate. -/
def Predicate.dates (p : Predicate) : List Instant := p.operands.filterMap Scalar.date?

/-- The dates among the operands of a predicate of a filter. -/
def FilterPredicate.dates (p : FilterPredicate) : List Instant := p.widen.dates

/-- The dates among all operands, leaf by leaf. -/
def Condition.dates (c : Condition) : List Instant := c.leaves.flatMap Predicate.dates

/-- The dates among all operands of a filter, leaf by leaf. -/
def Filter.dates (f : Filter) : List Instant := f.leaves.flatMap FilterPredicate.dates

theorem Scalar.asShown_eq_self_iff {s : Scalar} :
    s.asShown = s ↔ ∀ t, s.date? = some t → t.LeapAtMinuteEnd := by
  cases s <;> simp [asShown, date?, Instant.asShown_eq_self_iff]

theorem Predicate.operands_asShown (p : Predicate) :
    p.asShown.operands = p.operands.map Scalar.asShown := by
  cases p <;> rfl

/-- A predicate is shown as it is when all its dates are. -/
theorem Predicate.asShown_eq_self_iff {p : Predicate} :
    p.asShown = p ↔ ∀ t ∈ p.dates, t.LeapAtMinuteEnd := by
  have hoperands : p.asShown = p ↔ p.operands.map Scalar.asShown = p.operands.map id := by
    rw [List.map_id]
    constructor
    · intro hsame
      rw [← p.operands_asShown, hsame]
    · intro hsame
      cases p <;> simp_all [asShown, operands]
  rw [hoperands, List.map_inj_left]
  unfold dates
  simp only [id_eq, Scalar.asShown_eq_self_iff, List.mem_filterMap]
  constructor
  · intro hall t ht
    obtain ⟨s, hs, hdate⟩ := ht
    exact hall s hs t hdate
  · intro hall s hs t hdate
    exact hall t ⟨s, hs, hdate⟩

theorem FilterPredicate.widen_asShown (p : FilterPredicate) :
    p.asShown.widen = p.widen.asShown := by
  cases p <;> rfl

theorem FilterPredicate.asShown_eq_self_iff {p : FilterPredicate} :
    p.asShown = p ↔ ∀ t ∈ p.dates, t.LeapAtMinuteEnd := by
  unfold dates
  rw [← Predicate.asShown_eq_self_iff, ← p.widen_asShown]
  cases p <;> simp [asShown, widen]

theorem Expression.leaves_map {Leaf Other : Type} (f : Leaf → Other) (e : Expression Leaf) :
    (e.map f).leaves = e.leaves.map f := by
  induction e with
  | leaf p => rfl
  | join left op right ihleft ihright =>
    rw [map, leaves, leaves, ihleft, ihright, List.map_append]
  | negation inner ih => exact ih

/-- A tree stays what it is when all its leaves do. -/
theorem Expression.map_eq_self_iff {Leaf : Type} {f : Leaf → Leaf} {e : Expression Leaf} :
    e.map f = e ↔ ∀ p ∈ e.leaves, f p = p := by
  induction e with
  | leaf p => simp [map, leaves]
  | join left op right ihleft ihright =>
    simp only [map, leaves, join.injEq, ihleft, ihright, true_and, List.forall_mem_append]
  | negation inner ih => simp only [map, leaves, negation.injEq, ih]

theorem Condition.asShown_eq_self_iff {c : Condition} :
    c.asShown = c ↔ ∀ t ∈ c.dates, t.LeapAtMinuteEnd := by
  unfold asShown dates
  simp only [Expression.map_eq_self_iff, Predicate.asShown_eq_self_iff, List.forall_mem_flatMap]

theorem Filter.asShown_eq_self_iff {f : Filter} :
    f.asShown = f ↔ ∀ t ∈ f.dates, t.LeapAtMinuteEnd := by
  unfold asShown dates
  simp only [Expression.map_eq_self_iff, FilterPredicate.asShown_eq_self_iff,
    List.forall_mem_flatMap]

/-! ## Section 4: Operators and operands -/

section Arranged

variable (a : Arrangement)

/-- A variant with a value has only one member. -/
theorem arranged_variant (name : String) (value : Json) :
    (variant name value).arranged a = variant name (value.arranged a) := by
  unfold variant
  rw [Json.arranged, Json.arrangedMembers, Json.arrangedMembers, a.order_singleton]

theorem height_variant (name : String) (value : Json) :
    (variant name value).height = 1 + value.height := by
  unfold variant
  rw [Json.height, Json.heightOfMembers, Json.heightOfMembers, Nat.max_eq_left (Nat.zero_le _)]

theorem variantParts_variant (name : String) (value : Json) :
    variantParts (variant name value) = .ok (name, some value) := rfl

theorem Comparator.decode_toJson (inPredicate : Bool) (op : Comparator) :
    Comparator.decode inPredicate (op.toJson.arranged a) = .ok op := by
  cases op <;> rfl

theorem Connective.decode_toJson (op : Connective) :
    Connective.decode (op.toJson.arranged a) = .ok op := by
  cases op <;> rfl

/-- A date is decoded from every text that is read as its instant. -/
theorem Scalar.decode_date {text : String} {t : Instant} (hread : Instant.read text = .ok t) :
    Scalar.decode (variant "Date" (.text text)) = .ok (.date t) := by
  have hdecode : Instant.decode (.text text) = .ok t := by
    unfold Instant.decode
    dsimp only
    rw [hread]
    rfl
  unfold Scalar.decode
  rw [variantParts_variant, ok_bind]
  simp only [decodeVariantValue, hdecode, ok_bind]
  rfl

theorem Scalar.decode_toJson (s : Scalar) :
    Scalar.decode (s.toJson.arranged a) = .ok s.asShown := by
  unfold Scalar.toJson
  cases s with
  | date t =>
    rw [arranged_variant]
    exact Scalar.decode_date t.read_stored
  | text s | number x | boolean b =>
    unfold Scalar.decode
    rw [arranged_variant, variantParts_variant, ok_bind]
    rfl

theorem decodeScalars_toJson (values : List Scalar) :
    decodeScalars ((Json.array (values.map Scalar.toJson)).arranged a) =
      .ok (values.map Scalar.asShown) := by
  rw [Json.arranged, Json.arrangedItems_eq_map]
  unfold decodeScalars
  dsimp only
  rw [mapM_eq_ok_iff, List.map_map, List.map_map, List.map_map]
  exact List.map_congr_left fun value _ => value.decode_toJson a

theorem AttributeValue.decode_toJson (v : AttributeValue) :
    AttributeValue.decode (v.toJson.arranged a) = .ok v := by
  unfold AttributeValue.toJson AttributeValue.decode
  cases v <;> rw [arranged_variant, variantParts_variant, ok_bind] <;> rfl

/-! ## Section 5: Predicates -/

theorem arranged_tagged (operator : String) (fields : List (String × Json)) :
    (tagged operator fields).arranged a =
      .object (a.order ((operatorKey, .text operator) :: Json.arrangedMembers a fields)) := by
  unfold tagged
  rw [Json.arranged, Json.arrangedMembers]
  rfl

/-- A predicate is taken apart into its operator and its fields. -/
theorem splitTag_tagged (typeName operator : String) (fields : List (String × Json))
    (hdistinct : (operatorKey :: fields.map (·.1)).Nodup) :
    ∃ rest, splitTag typeName operatorKey ((tagged operator fields).arranged a) =
        .ok (operator, .object rest) ∧
      rest.Perm (Json.arrangedMembers a fields) := by
  have hkeys : (Json.arrangedMembers a fields).map (·.1) = fields.map (·.1) := by
    rw [Json.arrangedMembers_eq_map, List.map_map]
    rfl
  rw [arranged_tagged]
  rw [← hkeys] at hdistinct
  exact splitTag_of_perm (a.order_perm _ hdistinct) hdistinct

section Tagged

variable {α β γ : Type} (typeName operator : String) (f : Field α) (g : Field β) (h : Field γ)
  {va vb vc : Json} {x : α} {y : β} {z : γ}

/-- A predicate with one field. -/
theorem splitTag_one (hdistinct : [operatorKey, f.name].Nodup)
    (hx : f.decode (va.arranged a) = .ok x) :
    ∃ fields, splitTag typeName operatorKey ((tagged operator [(f.name, va)]).arranged a) =
        .ok (operator, fields) ∧
      ∀ kind, decodeRecord1 kind f fields = .ok x := by
  obtain ⟨rest, hsplit, hperm⟩ := splitTag_tagged a typeName operator [(f.name, va)] hdistinct
  exact ⟨_, hsplit, fun kind => decodeRecord1_of_perm hperm hx⟩

/-- A predicate with two fields. -/
theorem splitTag_two (hdistinct : [operatorKey, f.name, g.name].Nodup)
    (hx : f.decode (va.arranged a) = .ok x) (hy : g.decode (vb.arranged a) = .ok y) :
    ∃ fields, splitTag typeName operatorKey
        ((tagged operator [(f.name, va), (g.name, vb)]).arranged a) = .ok (operator, fields) ∧
      ∀ kind, decodeRecord2 kind f g fields = .ok (x, y) := by
  obtain ⟨rest, hsplit, hperm⟩ :=
    splitTag_tagged a typeName operator [(f.name, va), (g.name, vb)] hdistinct
  exact ⟨_, hsplit, fun kind => decodeRecord2_of_perm hperm (List.nodup_cons.mp hdistinct).2 hx hy⟩

/-- A predicate with three fields. -/
theorem splitTag_three (hdistinct : [operatorKey, f.name, g.name, h.name].Nodup)
    (hx : f.decode (va.arranged a) = .ok x) (hy : g.decode (vb.arranged a) = .ok y)
    (hz : h.decode (vc.arranged a) = .ok z) :
    ∃ fields, splitTag typeName operatorKey
        ((tagged operator [(f.name, va), (g.name, vb), (h.name, vc)]).arranged a) =
          .ok (operator, fields) ∧
      ∀ kind, decodeRecord3 kind f g h fields = .ok (x, y, z) := by
  obtain ⟨rest, hsplit, hperm⟩ :=
    splitTag_tagged a typeName operator [(f.name, va), (g.name, vb), (h.name, vc)] hdistinct
  exact ⟨_, hsplit,
    fun kind => decodeRecord3_of_perm hperm (List.nodup_cons.mp hdistinct).2 hx hy hz⟩

end Tagged

theorem decodeText_text (s : String) : decodeText ((Json.text s).arranged a) = .ok s := rfl

theorem fieldField_decode (field : String) :
    fieldField.decode ((Json.text field).arranged a) = .ok field := rfl

theorem decodeNumber_real (x : Binary64) : decodeNumber ((Json.real x).arranged a) = .ok x := rfl

/-- The comparison, of a condition or a filter. -/
theorem splitTag_compare (typeName field : String) (op : Comparator) (value : Scalar) :
    ∃ fields, splitTag typeName operatorKey
        ((tagged "compare" [("field", .text field), ("op", op.toJson),
          ("value", value.toJson)]).arranged a) = .ok ("compare", fields) ∧
      decodeCompare typeName fields = .ok (field, op, value.asShown) := by
  obtain ⟨fields, hsplit, hfields⟩ :=
    splitTag_three a typeName "compare" fieldField opField (scalarField "value") (by decide)
      (fieldField_decode a field) (op.decode_toJson a true) (value.decode_toJson a)
  exact ⟨fields, hsplit, hfields _⟩

/-- The range, of a condition or a filter. -/
theorem splitTag_between (typeName field : String) (low high : Scalar) :
    ∃ fields, splitTag typeName operatorKey
        ((tagged "between" [("field", .text field), ("low", low.toJson),
          ("high", high.toJson)]).arranged a) = .ok ("between", fields) ∧
      decodeBetween typeName fields = .ok (field, low.asShown, high.asShown) := by
  obtain ⟨fields, hsplit, hfields⟩ :=
    splitTag_three a typeName "between" fieldField (scalarField "low") (scalarField "high")
      (by decide) (fieldField_decode a field) (low.decode_toJson a) (high.decode_toJson a)
  exact ⟨fields, hsplit, hfields _⟩

/-- The text beginning, of a condition or a filter. -/
theorem splitTag_beginsWith (typeName field start : String) :
    ∃ fields, splitTag typeName operatorKey
        ((tagged "begins_with" [("field", .text field), ("prefix", .text start)]).arranged a) =
          .ok ("begins_with", fields) ∧
      decodeBeginsWith typeName fields = .ok (field, start) := by
  have hstart : (Field.mk "prefix" decodeText).decode ((Json.text start).arranged a) = .ok start :=
    decodeText_text a start
  obtain ⟨fields, hsplit, hfields⟩ :=
    splitTag_two a typeName "begins_with" fieldField ⟨"prefix", decodeText⟩ (by decide)
      (fieldField_decode a field) hstart
  exact ⟨fields, hsplit, hfields _⟩

/-- A predicate is decoded from its stored form. -/
theorem Predicate.decode_toJson (p : Predicate) :
    Predicate.decode (p.toJson.arranged a) = .ok p.asShown := by
  unfold Predicate.toJson Predicate.decode
  cases p with
  | compare field op value =>
    obtain ⟨fields, hsplit, hfields⟩ := splitTag_compare a "Condition" field op value
    simp only [hsplit, ok_bind, hfields]
    rfl
  | between field low high =>
    obtain ⟨fields, hsplit, hfields⟩ := splitTag_between a "Condition" field low high
    simp only [hsplit, ok_bind, hfields]
    rfl
  | beginsWith field start =>
    obtain ⟨fields, hsplit, hfields⟩ := splitTag_beginsWith a "Condition" field start
    simp only [hsplit, ok_bind, hfields]
    rfl
  | contains field value =>
    obtain ⟨fields, hsplit, hfields⟩ :=
      splitTag_two a "Condition" "contains" fieldField (scalarField "value") (by decide)
        (fieldField_decode a field) (value.decode_toJson a)
    dsimp only [fieldField, scalarField] at hsplit
    simp only [hsplit, ok_bind, hfields]
    rfl
  | present field =>
    obtain ⟨fields, hsplit, hfields⟩ :=
      splitTag_one a "Condition" "exists" fieldField (by decide) (fieldField_decode a field)
    dsimp only [fieldField] at hsplit
    simp only [hsplit, ok_bind, hfields]
    rfl
  | absent field =>
    obtain ⟨fields, hsplit, hfields⟩ :=
      splitTag_one a "Condition" "not_exists" fieldField (by decide) (fieldField_decode a field)
    dsimp only [fieldField] at hsplit
    simp only [hsplit, ok_bind, hfields]
    rfl
  | size field op bound =>
    have hbound : (Field.mk "value" decodeNumber).decode ((Json.real bound).arranged a) =
        .ok bound :=
      decodeNumber_real a bound
    obtain ⟨fields, hsplit, hfields⟩ :=
      splitTag_three a "Condition" "size" fieldField opField ⟨"value", decodeNumber⟩ (by decide)
        (fieldField_decode a field) (op.decode_toJson a true) hbound
    dsimp only [fieldField, opField] at hsplit
    simp only [hsplit, ok_bind, hfields]
    rfl
  | oneOf field values =>
    have hvalues : (Field.mk "values" decodeScalars).decode
        ((Json.array (values.map Scalar.toJson)).arranged a) = .ok (values.map Scalar.asShown) :=
      decodeScalars_toJson a values
    obtain ⟨fields, hsplit, hfields⟩ :=
      splitTag_two a "Condition" "in" fieldField ⟨"values", decodeScalars⟩ (by decide)
        (fieldField_decode a field) hvalues
    dsimp only [fieldField] at hsplit
    simp only [hsplit, ok_bind, hfields]
    rfl

/-- A predicate of a filter is decoded from its stored form. -/
theorem FilterPredicate.decode_toJson (p : FilterPredicate) :
    FilterPredicate.decode (p.toJson.arranged a) = .ok p.asShown := by
  unfold FilterPredicate.toJson FilterPredicate.decode
  cases p with
  | compare field op value =>
    obtain ⟨fields, hsplit, hfields⟩ := splitTag_compare a "FilterCondition" field op value
    simp only [hsplit, ok_bind, hfields]
    rfl
  | between field low high =>
    obtain ⟨fields, hsplit, hfields⟩ := splitTag_between a "FilterCondition" field low high
    simp only [hsplit, ok_bind, hfields]
    rfl
  | beginsWith field start =>
    obtain ⟨fields, hsplit, hfields⟩ := splitTag_beginsWith a "FilterCondition" field start
    simp only [hsplit, ok_bind, hfields]
    rfl

/-! ## Section 6: Trees -/

section Trees

variable {Leaf : Type} {leafToJson : Leaf → Json} {decodeLeaf : Decoder Leaf}
  {shown : Leaf → Leaf} (origin : Origin)

/-- The value of a connective is decoded when its operands are. -/
theorem decodeJoin_toJson {decodeOperand : Decoder (Expression Leaf)} {left right : Expression Leaf}
    {vleft vright : Json} (op : Connective) (hleft : decodeOperand (vleft.arranged a) = .ok left)
    (hright : decodeOperand (vright.arranged a) = .ok right) :
    Expression.decodeJoin origin decodeOperand
        (some ((Json.object [("left", vleft), ("op", op.toJson), ("right", vright)]).arranged a)) =
      .ok (.join left op right) := by
  have hkeys : ["left", "op", "right"].Nodup := by decide
  have hrecord : decodeRecord3 (.variant "ConditionExpression" "Logic") ⟨"left", decodeOperand⟩
      ⟨"op", Connective.decode⟩ ⟨"right", decodeOperand⟩
      ((Json.object [("left", vleft), ("op", op.toJson), ("right", vright)]).arranged a) =
        .ok (left, op, right) :=
    decodeRecord3_of_perm (a.order_perm _ hkeys) hkeys hleft (op.decode_toJson a) hright
  unfold Expression.decodeJoin
  dsimp only
  rw [hrecord, ok_bind, Json.arranged, if_neg (by simp)]
  rfl

/-- A tree is decoded from its stored form with fuel for its depth, leaf by
    leaf. -/
theorem decodeWithin_toJson (hleaf : ∀ p, decodeLeaf ((leafToJson p).arranged a) = .ok (shown p))
    {fuel : Nat} (e : Expression Leaf) (hfuel : e.depth ≤ fuel) :
    Expression.decodeWithin origin decodeLeaf fuel ((e.toJson leafToJson).arranged a) =
      .ok (e.map shown) := by
  -- By induction on the fuel, which the decoder spends on each level.
  induction fuel generalizing e with
  | zero => exact absurd e.depth_pos (Nat.not_lt.mpr hfuel)
  | succ fuel ih =>
    cases e with
    | leaf p =>
      rw [Expression.toJson, arranged_variant, Expression.decodeWithin, variantParts_variant,
        ok_bind]
      simp only [decodeVariantValue, hleaf p, ok_bind]
      rfl
    | join left op right =>
      rw [Expression.depth] at hfuel
      have hleft := ih left (by omega)
      have hright := ih right (by omega)
      rw [Expression.toJson, arranged_variant, Expression.decodeWithin, variantParts_variant,
        ok_bind]
      dsimp only
      exact decodeJoin_toJson a origin op hleft hright
    | negation inner =>
      rw [Expression.depth] at hfuel
      have hinner := ih inner (by omega)
      rw [Expression.toJson, arranged_variant, Expression.decodeWithin, variantParts_variant,
        ok_bind]
      simp only [decodeVariantValue, hinner, ok_bind]
      rfl

/-- The stored form of a tree is as high as the tree is deep. -/
theorem depth_le_height (e : Expression Leaf) :
    e.depth ≤ ((e.toJson leafToJson).arranged a).height + 1 := by
  induction e with
  | leaf p => exact Nat.succ_le_succ (Nat.zero_le _)
  | join left op right ihleft ihright =>
    have hkeys : ["left", "op", "right"].Nodup := by decide
    have hperm := a.order_perm (Json.arrangedMembers a [("left", left.toJson leafToJson),
      ("op", op.toJson), ("right", right.toJson leafToJson)]) hkeys
    have hleft := Json.height_le_heightOfMembers (hperm.mem_iff.mpr List.mem_cons_self)
    have hright := Json.height_le_heightOfMembers (hperm.mem_iff.mpr
      (List.mem_cons_of_mem _ (List.mem_cons_of_mem _ List.mem_cons_self)))
    rw [Expression.toJson, arranged_variant, height_variant, Json.arranged, Json.height,
      Expression.depth]
    omega
  | negation inner ih =>
    rw [Expression.toJson, arranged_variant, height_variant, Expression.depth]
    omega

/-- A tree is decoded from its stored form. -/
theorem Expression.decode_toJson
    (hleaf : ∀ p, decodeLeaf ((leafToJson p).arranged a) = .ok (shown p)) (e : Expression Leaf) :
    Expression.decode origin decodeLeaf ((e.toJson leafToJson).arranged a) = .ok (e.map shown) :=
  decodeWithin_toJson a origin hleaf e (depth_le_height a e)

end Trees

theorem Condition.decode_toJson (origin : Origin) (c : Condition) :
    Condition.decode origin (c.toJson.arranged a) = .ok c.asShown :=
  Expression.decode_toJson a origin (Predicate.decode_toJson a) c

theorem Filter.decode_toJson (origin : Origin) (f : Filter) :
    Filter.decode origin (f.toJson.arranged a) = .ok f.asShown :=
  Expression.decode_toJson a origin (FilterPredicate.decode_toJson a) f

/-! ## Section 7: Compiled expressions and options -/

section Tables

variable {α : Type} {decodeValue : Decoder α} {valueToJson : α → Json}

/-- Members in another order give the same entries in another order. -/
theorem decodeEntries_perm {members members' : List (String × Json)}
    {entries : List (String × α)} (hperm : members.Perm members')
    (h : decodeEntries decodeValue members = .ok entries) :
    ∃ entries', decodeEntries decodeValue members' = .ok entries' ∧ entries.Perm entries' := by
  -- Each step of the permutation is followed by the entries.
  induction hperm generalizing entries with
  | nil => exact ⟨entries, h, .refl _⟩
  | cons member _ ih =>
    obtain ⟨key, v⟩ := member
    rw [decodeEntries, bind_eq_ok_iff] at h
    obtain ⟨x, hx, h⟩ := h
    obtain ⟨rest, hrest, h⟩ := bind_eq_ok_iff.mp h
    obtain ⟨rest', hrest', hsame⟩ := ih hrest
    cases h
    refine ⟨(key, x) :: rest', ?_, hsame.cons _⟩
    rw [decodeEntries, hx, ok_bind, hrest', ok_bind]
    rfl
  | swap second first members =>
    obtain ⟨key, v⟩ := first
    obtain ⟨key', v'⟩ := second
    simp only [decodeEntries, bind_eq_ok_iff] at h
    obtain ⟨x, hx, _, ⟨x', hx', rest, hrest, hok⟩, h⟩ := h
    cases hok
    cases h
    refine ⟨_, ?_, .swap (key', x') (key, x) rest⟩
    simp only [decodeEntries, hx, hx', hrest, ok_bind]
    rfl
  | trans _ _ ih ih' =>
    obtain ⟨middle, hmiddle, hsame⟩ := ih h
    obtain ⟨last, hlast, hsame'⟩ := ih' hmiddle
    exact ⟨last, hlast, hsame.trans hsame'⟩

theorem decodeEntries_toJson (hvalue : ∀ x, decodeValue ((valueToJson x).arranged a) = .ok x)
    (entries : List (String × α)) :
    decodeEntries decodeValue (Json.arrangedMembers a
      (entries.map fun entry => (entry.1, valueToJson entry.2))) = .ok entries := by
  induction entries with
  | nil => rfl
  | cons entry entries ih =>
    rw [List.map_cons, Json.arrangedMembers, decodeEntries, hvalue, ok_bind, ih, ok_bind]
    rfl

/-- A table is decoded from its entries in any order. -/
theorem Table.decode_toJson (hvalue : ∀ x, decodeValue ((valueToJson x).arranged a) = .ok x)
    (t : Table α) : Table.decode decodeValue ((t.toJson valueToJson).arranged a) = .ok t := by
  have hkeys : (Json.arrangedMembers a
      (t.entries.map fun entry => (entry.1, valueToJson entry.2))).map (·.1) = t.keys := by
    rw [Json.arrangedMembers_eq_map, List.map_map, List.map_map]
    rfl
  have hperm := a.order_perm _ (hkeys ▸ t.nodup_keys)
  obtain ⟨entries, hentries, hsame⟩ :=
    decodeEntries_perm hperm.symm (decodeEntries_toJson a hvalue t.entries)
  have htable : Table.ofList entries = t :=
    Table.eq_of_perm ((Table.entries_ofList_perm
      ((hsame.map _).nodup_iff.mp t.nodup_keys)).trans hsame.symm)
  rw [Table.toJson, Json.arranged, Table.decode, hentries, ok_bind, htable]
  rfl

end Tables

/-- A compiled expression is decoded from its stored form. -/
theorem CompiledExpression.decode_toJson (c : CompiledExpression) :
    CompiledExpression.decode (c.toJson.arranged a) = .ok c := by
  have hkeys : ["expression", "names", "values"].Nodup := by decide
  have hnames : (Field.mk "names" (Table.decode decodeText)).decode
      ((c.names.toJson .text).arranged a) = .ok c.names :=
    Table.decode_toJson a (decodeText_text a) c.names
  have hvalues : (Field.mk "values" (Table.decode AttributeValue.decode)).decode
      ((c.values.toJson AttributeValue.toJson).arranged a) = .ok c.values :=
    Table.decode_toJson a (AttributeValue.decode_toJson a) c.values
  have hrecord : decodeRecord3 (.plain "CompiledExpression") ⟨"expression", decodeText⟩
      ⟨"names", Table.decode decodeText⟩ ⟨"values", Table.decode AttributeValue.decode⟩
      (c.toJson.arranged a) = .ok (c.expression, c.names, c.values) :=
    decodeRecord3_of_perm (a.order_perm _ hkeys) hkeys (decodeText_text a c.expression)
      hnames hvalues
  unfold CompiledExpression.decode
  rw [hrecord]
  rfl

/-- Options are decoded from their stored form. -/
theorem Options.decode_toJson (o : Options) : Options.decode (o.toJson.arranged a) = .ok o := by
  have hkeys : [conditionRootField.name, filterRootField.name, checkCoverageField.name].Nodup := by
    decide
  have hperm := a.order_perm (Json.arrangedMembers a
    [(conditionRootField.name, .text o.conditionRoot), (filterRootField.name, .text o.filterRoot),
      (checkCoverageField.name, .boolean o.checkCoverage)]) hkeys
  have hdistinct := (hperm.map Prod.fst).nodup_iff.mpr hkeys
  have hcondition := Field.member?_eq (f := conditionRootField) hdistinct
    (hperm.mem_iff.mpr List.mem_cons_self) (decodeText_text a o.conditionRoot)
  have hfilter := Field.member?_eq (f := filterRootField) hdistinct
    (hperm.mem_iff.mpr (List.mem_cons_of_mem _ List.mem_cons_self)) (decodeText_text a o.filterRoot)
  have hcheck : checkCoverageField.member? _ = .ok (some o.checkCoverage) :=
    Field.member?_eq (f := checkCoverageField) hdistinct
      (hperm.mem_iff.mpr (List.mem_cons_of_mem _ (List.mem_cons_of_mem _ List.mem_cons_self))) rfl
  have hdecode : Options.decode (.object (a.order (Json.arrangedMembers a
      [(conditionRootField.name, .text o.conditionRoot), (filterRootField.name, .text o.filterRoot),
        (checkCoverageField.name, .boolean o.checkCoverage)]))) = .ok o := by
    unfold Options.decode
    dsimp only
    rw [hcondition, hfilter, hcheck]
    rfl
  exact hdecode

end Arranged

end CondExpr
