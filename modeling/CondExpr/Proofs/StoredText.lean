import CondExpr.Proofs.Rendered
import CondExpr.Proofs.Reread
import CondExpr.Proofs.StoredForm
import CondExpr.Stored.Text

/-! # Stored conditions in JSON text

  A stored tree is read member by member, and every member of its compact
  text is read up to the text behind it, as by the reader of whole values.
  So a condition is loaded from the text it is stored as when the reader
  finds all its numbers again, its dates are as they are shown and the text
  is not nested too deeply.
-/

namespace CondExpr

namespace Json

/-! ## Section 1: Objects read by their keys -/

/-- A value that is kept is read as it is. -/
theorem Outcome.kept {result : Except FaultAt (Json × Cursor)} {rest : List Char}
    {expected : Except JsonFault Json} (h : Outcome result rest expected) :
    Outcome (kept result) rest (expected.map some) := by
  cases expected with
  | ok v =>
    obtain ⟨offset, rfl⟩ := h
    exact ⟨offset, rfl⟩
  | error fault =>
    obtain ⟨offset, rfl⟩ := h
    exact ⟨offset, rfl⟩

theorem outcome_readAny {v : Json} (hfits : ∀ n, .integer n ∈ v.atoms → Fits64 n) (room : Nat)
    {rest : List Char} (hrest : EndsNumeral rest) (offset : Nat) :
    Outcome (readAny room ⟨v.compactBefore rest, offset⟩) rest ((v.reloaded room).map some) :=
  (outcome_value v hfits room offset hrest (Nat.le_refl _)).kept

/-- The part of an object that belongs to a member goes over its value. -/
def GoesOver (part : String → PartReader) (room : Nat) (member : String × Json) : Prop :=
  ∀ rest offset, EndsNumeral rest →
    Outcome (part member.1 ⟨member.2.compactBefore rest, offset⟩) rest
      ((member.2.reloaded room).map some)

theorem readMembersBy_more {part : String → PartReader} {fuel : Nat}
    {before : List (String × Json)} {first : Bool} {c c' : Cursor}
    (hmore : nextMember .keep first c = .ok (.more, c')) :
    readMembersBy part (fuel + 1) before first c =
      readString .keep c' >>= fun key =>
        readColon key.2 >>= fun colon =>
          part key.1 colon >>= fun value =>
            match value with
            | (some v, c) => readMembersBy part fuel ((key.1, v) :: before) false c
            | (none, c) => readMembersBy part fuel before false c := by
  rw [readMembersBy, hmore]
  rfl

/-- One member and those after it. -/
theorem outcome_more_membersBy {part : String → PartReader} {room : Nat} (fuel : Nat)
    (before : List (String × Json)) (first : Bool) (key : String) (value : Json)
    (members : List (String × Json)) (rest : List Char) (hpart : GoesOver part room (key, value))
    (hmembers : ∀ value' offset, Outcome
      (readMembersBy part fuel ((key, value') :: before) false ⟨membersBefore members rest, offset⟩)
      rest (reloadedMembers room members >>= fun members =>
        .ok (.object (((key, value') :: before).reverse ++ members))))
    (offset : Nat) :
    Outcome (readMembersBy part (fuel + 1) before first
        ⟨if first then quotedBefore key (':' :: value.compactBefore (membersBefore members rest))
          else ',' :: quotedBefore key (':' :: value.compactBefore (membersBefore members rest)),
          offset⟩) rest
      (reloadedMembers room ((key, value) :: members) >>= fun members =>
        .ok (.object (before.reverse ++ members))) := by
  obtain ⟨inside, behind, hmore, hkey, hcolon⟩ := nextMember_more first key
    (value.compactBefore (membersBefore members rest)) offset
  have hvalue := hpart (membersBefore members rest) (behind + 1) (endsNumeral_membersBefore _ _)
  rw [readMembersBy_more hmore, reloadedMembers_more, hkey]
  simp only [ok_bind, hcolon]
  dsimp only at hvalue
  cases hreloaded : value.reloaded room with
  | ok v =>
    rw [hreloaded] at hvalue
    obtain ⟨offset', hread⟩ := hvalue
    rw [hread]
    exact hmembers v offset'
  | error fault =>
    rw [hreloaded] at hvalue
    obtain ⟨offset', hread⟩ := hvalue
    rw [hread]
    exact ⟨offset', rfl⟩

/-- The members after the first. -/
theorem outcome_membersBy {part : String → PartReader} {room : Nat}
    {members : List (String × Json)} (hparts : ∀ member ∈ members, GoesOver part room member)
    {fuel : Nat} (hfuel : members.length < fuel) (before : List (String × Json)) (rest : List Char)
    (offset : Nat) :
    Outcome (readMembersBy part fuel before false ⟨membersBefore members rest, offset⟩) rest
      (reloadedMembers room members >>= fun members =>
        .ok (.object (before.reverse ++ members))) := by
  induction members generalizing fuel before offset with
  | nil =>
    obtain ⟨fuel, rfl⟩ := Nat.exists_eq_succ_of_ne_zero hfuel.ne'
    refine ⟨offset + 1, ?_⟩
    rw [List.append_nil]
    rfl
  | cons member members ih =>
    obtain ⟨fuel, rfl⟩ := Nat.exists_eq_succ_of_ne_zero (Nat.ne_of_gt (Nat.zero_lt_of_lt hfuel))
    obtain ⟨key, value⟩ := member
    exact outcome_more_membersBy fuel before false key value members rest
      (hparts _ List.mem_cons_self)
      (fun value' offset => ih
        (fun member hmember => hparts member (List.mem_cons_of_mem _ hmember))
        (Nat.lt_of_succ_lt_succ hfuel) ((key, value') :: before) offset)
      offset

theorem length_le_membersBefore (members : List (String × Json)) (rest : List Char) :
    members.length ≤ (membersBefore members rest).length := by
  induction members with
  | nil => exact Nat.zero_le _
  | cons member members ih =>
    obtain ⟨key, value⟩ := member
    have hvalue := length_lt_compactBefore value (membersBefore members rest)
    have hkey := length_lt_keyBefore key (value.compactBefore (membersBefore members rest))
    rw [membersBefore, List.length_cons, List.length_cons]
    omega

/-- An object is gone over when its members are. -/
theorem outcome_objectBy {part : Nat → String → PartReader} {room : Nat} {key : String}
    {value : Json} {members : List (String × Json)}
    (hparts : ∀ member ∈ (key, value) :: members, GoesOver (part (room - 1)) (room - 1) member)
    (rest : List Char) (offset : Nat) :
    Outcome (readObjectBy part room
        ⟨(Json.object ((key, value) :: members)).compactBefore rest, offset⟩) rest
      ((Json.object ((key, value) :: members)).reloaded room) := by
  have hlen := length_le_membersBefore members rest
  have hvalue := length_lt_compactBefore value (membersBefore members rest)
  have hkey := length_lt_keyBefore key (value.compactBefore (membersBefore members rest))
  rw [compactBefore, reloaded]
  generalize hcs : quotedBefore key (':' :: value.compactBefore (membersBefore members rest)) = cs
    at hkey
  refine outcome_opened (fun inside => readMembersBy (part inside)
    (Cursor.fuel ⟨'\x7b' :: cs, offset⟩) [] true ⟨cs, offset + 1⟩) ?_
  have hfuel : Cursor.fuel ⟨'\x7b' :: cs, offset⟩ = 2 * cs.length + 3 + 1 := by
    unfold Cursor.fuel
    rw [List.length_cons]
    omega
  subst hcs
  rw [hfuel]
  exact outcome_more_membersBy _ [] true key value members rest (hparts _ List.mem_cons_self)
    (fun value' offset => outcome_membersBy
      (fun member hmember => hparts member (List.mem_cons_of_mem _ hmember)) (by omega) _ rest
        offset)
    (offset + 1)

/-! ## Section 2: Trees -/

section Trees

variable {Leaf : Type} {leafToJson : Leaf → Json}

/-- The text of an object holds those of its members. -/
theorem exists_length_lt_membersBefore {members : List (String × Json)} {key : String} {v : Json}
    (hmem : (key, v) ∈ members) (rest : List Char) :
    ∃ rest', (v.compactBefore rest').length < (membersBefore members rest).length := by
  induction members with
  | nil => cases hmem
  | cons member members ih =>
    obtain ⟨key', v'⟩ := member
    have hvalue := length_lt_compactBefore v' (membersBefore members rest)
    have hkey := length_lt_keyBefore key' (v'.compactBefore (membersBefore members rest))
    rw [membersBefore, List.length_cons]
    rcases List.mem_cons.mp hmem with heq | hmem
    · cases heq
      exact ⟨membersBefore members rest, by omega⟩
    · obtain ⟨rest', hlt⟩ := ih hmem
      exact ⟨rest', by omega⟩

theorem exists_length_lt_object {members : List (String × Json)} {key : String} {v : Json}
    (hmem : (key, v) ∈ members) (rest : List Char) :
    ∃ rest',
      (v.compactBefore rest').length < ((Json.object members).compactBefore rest).length := by
  obtain ⟨rest', hlt⟩ := exists_length_lt_membersBefore hmem rest
  refine ⟨rest', ?_⟩
  cases members with
  | nil => cases hmem
  | cons member members =>
    obtain ⟨key', v'⟩ := member
    rw [membersBefore, List.length_cons] at hlt
    rwa [compactBefore, List.length_cons]

theorem exists_length_lt_variant (name : String) (v : Json) (rest : List Char) :
    ∃ rest', (v.compactBefore rest').length < ((variant name v).compactBefore rest).length :=
  exists_length_lt_object List.mem_cons_self rest

/-- The text of a stored tree is as long as the tree is deep. -/
theorem depth_le_length (e : Expression Leaf) (rest : List Char) :
    e.depth ≤ ((e.toJson leafToJson).compactBefore rest).length := by
  induction e generalizing rest with
  | leaf p =>
    have hlen := length_lt_compactBefore ((Expression.leaf p).toJson leafToJson) rest
    rw [Expression.depth]
    omega
  | join left op right ihleft ihright =>
    rw [Expression.toJson, Expression.depth]
    generalize hmembers : [("left", left.toJson leafToJson), ("op", op.toJson),
      ("right", right.toJson leafToJson)] = members
    have hmemLeft : ("left", left.toJson leafToJson) ∈ members := by simp [← hmembers]
    have hmemRight : ("right", right.toJson leafToJson) ∈ members := by simp [← hmembers]
    obtain ⟨inside, hinside⟩ := exists_length_lt_variant "Logic" (.object members) rest
    obtain ⟨restLeft, hleft⟩ := exists_length_lt_object hmemLeft inside
    obtain ⟨restRight, hright⟩ := exists_length_lt_object hmemRight inside
    have hdepthLeft := ihleft restLeft
    have hdepthRight := ihright restRight
    omega
  | negation inner ih =>
    obtain ⟨inside, hinside⟩ := exists_length_lt_variant "Not" (inner.toJson leafToJson) rest
    have hdepth := ih inside
    rw [Expression.toJson, Expression.depth]
    omega

/-- A stored tree is gone over member by member. -/
theorem outcome_tree (hleaf : ∀ p n, .integer n ∉ (leafToJson p).atoms) {fuel : Nat}
    (e : Expression Leaf) (hfuel : 2 * e.depth ≤ fuel) (room : Nat) (rest : List Char)
    (offset : Nat) :
    Outcome (readTree fuel room ⟨(e.toJson leafToJson).compactBefore rest, offset⟩) rest
      ((e.toJson leafToJson).reloaded room) := by
  induction e generalizing fuel room rest offset with
  | leaf p =>
    obtain ⟨fuel, rfl⟩ : ∃ k, fuel = k + 1 := ⟨fuel - 1, by rw [Expression.depth] at hfuel; omega⟩
    refine outcome_objectBy ?_ rest offset
    intro member hmember
    obtain rfl := List.mem_singleton.mp hmember
    intro rest offset hrest
    exact outcome_readAny (fun n hn => absurd hn (hleaf p n)) _ hrest offset
  | join left op right ihleft ihright =>
    rw [Expression.depth] at hfuel
    obtain ⟨fuel, rfl⟩ : ∃ k, fuel = k + 2 := ⟨fuel - 2, by omega⟩
    refine outcome_objectBy ?_ rest offset
    intro member hmember
    obtain rfl := List.mem_singleton.mp hmember
    intro rest offset _
    -- The value of the connective is an object, which is read by its keys too.
    refine Outcome.kept (outcome_objectBy ?_ rest offset)
    intro member hmember
    have hcases : member = ("left", left.toJson leafToJson) ∨ member = ("op", op.toJson) ∨
        member = ("right", right.toJson leafToJson) := by
      simpa using hmember
    rcases hcases with rfl | rfl | rfl
    · intro rest offset _
      exact (ihleft (by omega) _ rest offset).kept
    · intro rest offset hrest
      refine outcome_readAny ?_ _ hrest offset
      intro n hn
      cases List.mem_singleton.mp hn
    · intro rest offset _
      exact (ihright (by omega) _ rest offset).kept
  | negation inner ih =>
    rw [Expression.depth] at hfuel
    obtain ⟨fuel, rfl⟩ : ∃ k, fuel = k + 1 := ⟨fuel - 1, by omega⟩
    refine outcome_objectBy ?_ rest offset
    intro member hmember
    obtain rfl := List.mem_singleton.mp hmember
    intro rest offset _
    exact (ih (by omega) _ rest offset).kept

end Trees

end Json

/-! ## Section 3: Conditions with other numbers -/

section Numbers

variable (g : Binary64 → Binary64)

/-- The operand with another number. -/
def Scalar.mapNumber : Scalar → Scalar
  | .number x => .number (g x)
  | s => s

/-- The predicate with other numbers. -/
def Predicate.mapNumbers : Predicate → Predicate
  | .compare field op value => .compare field op (value.mapNumber g)
  | .between field low high => .between field (low.mapNumber g) (high.mapNumber g)
  | .contains field value => .contains field (value.mapNumber g)
  | .size field op bound => .size field op (g bound)
  | .oneOf field values => .oneOf field (values.map (Scalar.mapNumber g))
  | p => p

/-- The condition with other numbers. -/
def Condition.mapNumbers (c : Condition) : Condition := c.map (Predicate.mapNumbers g)

theorem Scalar.mapReals_toJson (s : Scalar) :
    s.toJson.mapReals (fun x => .real (g x)) = (s.mapNumber g).toJson := by
  cases s <;> rfl

theorem Scalar.number?_mapNumber (s : Scalar) : (s.mapNumber g).number? = s.number?.map g := by
  cases s <;> rfl

theorem Predicate.mapReals_toJson (p : Predicate) :
    p.toJson.mapReals (fun x => .real (g x)) = (p.mapNumbers g).toJson := by
  have hvalues (values : List Scalar) :
      Json.mapRealsOfItems (fun x => .real (g x)) (values.map Scalar.toJson) =
        (values.map (Scalar.mapNumber g)).map Scalar.toJson := by
    induction values with
    | nil => rfl
    | cons value values ih =>
      rw [List.map_cons, Json.mapRealsOfItems, value.mapReals_toJson, ih]
      rfl
  cases p <;> simp [toJson, mapNumbers, tagged, Json.mapReals, Json.mapRealsOfMembers,
    Comparator.toJson, Scalar.mapReals_toJson, hvalues]

theorem Predicate.numbers_mapNumbers (p : Predicate) :
    (p.mapNumbers g).numbers = p.numbers.map g := by
  have hoperands : (p.mapNumbers g).operands = p.operands.map (Scalar.mapNumber g) := by
    cases p <;> rfl
  have hnumber : Scalar.number? ∘ Scalar.mapNumber g = fun s => s.number?.map g :=
    funext (Scalar.number?_mapNumber g)
  rw [numbers, hoperands, List.filterMap_map, hnumber, numbers, List.map_filterMap]

theorem Condition.mapReals_toJson (c : Condition) :
    c.toJson.mapReals (fun x => .real (g x)) = (c.mapNumbers g).toJson := by
  unfold toJson mapNumbers
  induction c with
  | leaf p =>
    simp only [Expression.toJson, Expression.map, variant, Json.mapReals, Json.mapRealsOfMembers,
      Predicate.mapReals_toJson]
  | join left op right ihleft ihright =>
    simp only [Expression.toJson, Expression.map, variant, Json.mapReals, Json.mapRealsOfMembers,
      Connective.toJson, ihleft, ihright]
  | negation inner ih =>
    simp only [Expression.toJson, Expression.map, variant, Json.mapReals, Json.mapRealsOfMembers,
      ih]

theorem Condition.numbers_mapNumbers (c : Condition) :
    (c.mapNumbers g).numbers = c.numbers.map g := by
  unfold numbers mapNumbers
  rw [Expression.leaves_map, List.flatMap_map, List.map_flatMap]
  simp only [Predicate.numbers_mapNumbers]

/-- Numbers are shown as they are. -/
theorem Predicate.numbers_asShown (p : Predicate) : p.asShown.numbers = p.numbers := by
  have hnumber : Scalar.number? ∘ Scalar.asShown = Scalar.number? := by
    funext s
    cases s <;> rfl
  rw [numbers, p.operands_asShown, List.filterMap_map, hnumber, numbers]

theorem Condition.numbers_asShown (c : Condition) : c.asShown.numbers = c.numbers := by
  unfold numbers asShown
  rw [Expression.leaves_map, List.flatMap_map]
  simp only [Predicate.numbers_asShown]

end Numbers

/-! ## Section 4: Heights -/

theorem integer_not_mem_atoms_scalar (s : Scalar) (n : Int) : .integer n ∉ s.toJson.atoms := by
  unfold Scalar.toJson
  cases s <;> rw [atoms_variant] <;> simp [Json.atoms]

theorem integer_not_mem_atoms_predicate (p : Predicate) (n : Int) :
    .integer n ∉ p.toJson.atoms := by
  have hvalues (values : List Scalar) :
      .integer n ∉ Json.atomsOfItems (values.map Scalar.toJson) := by
    induction values with
    | nil => exact List.not_mem_nil
    | cons value values ih =>
      rw [List.map_cons, Json.atomsOfItems, List.mem_append, not_or]
      exact ⟨integer_not_mem_atoms_scalar value n, ih⟩
  cases p <;> simp [Predicate.toJson, tagged, Json.atoms, Json.atomsOfMembers, Comparator.toJson,
    integer_not_mem_atoms_scalar, hvalues]

theorem height_scalar (s : Scalar) : s.toJson.height = 1 := by
  unfold Scalar.toJson
  cases s <;> rw [height_variant] <;> rfl

/-- A stored predicate is an object, in which an operand is one too, and a
    list of operands stands between. -/
theorem height_predicate_bounds (p : Predicate) : 1 ≤ p.toJson.height ∧ p.toJson.height ≤ 3 := by
  have hvalues (values : List Scalar) :
      Json.heightOfItems (values.map Scalar.toJson) ≤ 1 := by
    induction values with
    | nil => exact Nat.zero_le _
    | cons value values ih =>
      rw [List.map_cons, Json.heightOfItems, height_scalar]
      exact Nat.max_le.mpr ⟨Nat.le_refl _, ih⟩
  cases p with
  | oneOf field values =>
    have hle := hvalues values
    simp only [Predicate.toJson, tagged, Json.height, Json.heightOfMembers]
    omega
  | _ => simp [Predicate.toJson, tagged, Json.height, Json.heightOfMembers, Comparator.toJson,
      height_scalar]

/-- Every negation takes one level of the text, and every connective two. -/
theorem Condition.height_bounds (c : Condition) :
    c.depth + 1 ≤ c.toJson.height ∧ c.toJson.height ≤ 2 * c.depth + 2 := by
  unfold toJson
  induction c with
  | leaf p =>
    have hleaf := height_predicate_bounds p
    rw [Expression.toJson, height_variant, Expression.depth]
    omega
  | join left op right ihleft ihright =>
    have hop : op.toJson.height = 0 := rfl
    rw [Expression.toJson, height_variant, Expression.depth]
    simp only [Json.height, Json.heightOfMembers, hop]
    omega
  | negation inner ih =>
    rw [Expression.toJson, height_variant, Expression.depth]
    omega

/-! ## Section 5: Loading -/

/-- A stored value is read from a text when the text is that of a JSON value
    that it is decoded from. -/
theorem decodeTextAs_eq_ok_iff {α : Type}
    {read : Json.Cursor → Except Json.FaultAt (Json × Json.Cursor)} {decode : Decoder α}
    {text : String} {a : α} :
    decodeTextAs read decode text = .ok a ↔
      ∃ v, Json.readWhole read text = .ok v ∧ decode v = .ok a := by
  simp only [decodeTextAs, bind_eq_ok_iff, mapError_eq_ok_iff]

/-- The numbers of a condition that is rendered can be read. -/
theorem Rendered.digitsRead_eq {ns : Namespace} {c : Condition} {out : CompiledExpression}
    (h : Rendered .standard ns c out) :
    ∀ x ∈ c.numbers, Json.digitsRead x = .ok (.real (Json.rereadAs x)) := by
  unfold Condition.numbers
  induction h with
  | @leaf ns p encoded hcount hops =>
    intro x hx
    rw [Expression.leaves, List.flatMap_singleton] at hx
    obtain ⟨operand, hoperand, hnumber⟩ := List.mem_filterMap.mp hx
    -- The operand has been encoded, so its number is one that is read.
    have hencoded : Encoder.standard operand ∈ encoded.map .ok :=
      hops ▸ List.mem_map_of_mem hoperand
    obtain ⟨v, -, hv⟩ := List.mem_map.mp hencoded
    cases operand with
    | number y =>
      cases Option.some.inj hnumber
      obtain ⟨y, hy⟩ := Json.exists_digitsRead hv.symm
      exact Json.digitsRead_eq hy
    | text => cases hnumber
    | boolean => cases hnumber
    | date => cases hnumber
  | join hleft hright ihleft ihright =>
    intro x hx
    rw [Expression.leaves, List.flatMap_append, List.mem_append] at hx
    exact hx.elim (ihleft x) (ihright x)
  | negation hinner ih => exact ih

namespace Condition

variable {c d : Condition}

theorem readWhole_compact (c : Condition) :
    (Json.readWhole readWholeTree c.toJson.compact).mapError (·.fault) =
      c.toJson.reloaded Json.fullRoom := by
  have hlist : c.toJson.compact.toList = c.toJson.compactBefore [] := String.toList_ofList
  have hdepth : c.depth ≤ (c.toJson.compactBefore []).length := Json.depth_le_length c []
  have hread := Json.outcome_tree integer_not_mem_atoms_predicate c
    (show 2 * c.depth ≤ 2 * (c.toJson.compactBefore []).length + 2 by omega) Json.fullRoom [] 0
  unfold Json.readWhole readWholeTree Json.Cursor.start Json.Cursor.fuel
  dsimp only
  rw [hlist]
  unfold toJson at *
  generalize (Expression.toJson Predicate.toJson c).reloaded Json.fullRoom = expected at *
  cases expected with
  | ok v =>
    obtain ⟨offset, hread⟩ := hread
    rw [hread]
    rfl
  | error fault =>
    obtain ⟨offset, hread⟩ := hread
    rw [hread]
    rfl

/-- What is loaded is decoded from what the whole text is read as. -/
theorem ofText_eq_ok_iff :
    ofText c.toJson.compact = .ok d ↔
      ∃ w, c.toJson.reloaded Json.fullRoom = .ok w ∧ decode .text w = .ok d := by
  rw [← readWhole_compact]
  simp only [ofText, decodeTextAs_eq_ok_iff, mapError_eq_ok_iff]

/-- A condition whose numbers can be read is loaded with what is read for
    them and with its dates as they are shown, unless its text is nested too
    deeply. -/
theorem ofText_of_digitsRead
    (hread : ∀ x ∈ c.numbers, Json.digitsRead x = .ok (.real (Json.rereadAs x))) :
    (c.toJson.height < Json.fullRoom →
      ofText c.toJson.compact = .ok (c.mapNumbers Json.rereadAs).asShown) ∧
      (Json.fullRoom ≤ c.toJson.height → ∃ offset,
        ofText c.toJson.compact = .error (.json ⟨.nestingTooDeep, offset⟩)) := by
  have hroom : 0 < Json.fullRoom := by decide
  have hreloaded := Json.reloaded_eq_mapReals c.toJson
    (fun x hx => hread x (real_mem_atoms_condition.mp hx)) hroom
  constructor
  · intro hlow
    rw [if_pos hlow, mapReals_toJson] at hreloaded
    have hdecode := (c.mapNumbers Json.rereadAs).decode_toJson .written .text
    rw [Json.arranged_written] at hdecode
    exact ofText_eq_ok_iff.mpr ⟨_, hreloaded, hdecode⟩
  · intro hhigh
    rw [if_neg (Nat.not_lt.mpr hhigh), ← readWhole_compact] at hreloaded
    unfold ofText decodeTextAs
    cases hwhole : Json.readWhole readWholeTree c.toJson.compact with
    | ok w =>
      rw [hwhole] at hreloaded
      cases hreloaded
    | error e =>
      rw [hwhole] at hreloaded
      have hfault : e.fault = .nestingTooDeep := Except.error.inj hreloaded
      exact ⟨e.offset, by rw [← hfault]; rfl⟩

/-- A condition stays what it is when all its numbers and dates do. -/
theorem asShown_mapNumbers_eq_self_iff {g : Binary64 → Binary64} :
    (c.mapNumbers g).asShown = c ↔
      (∀ x ∈ c.numbers, g x = x) ∧ ∀ t ∈ c.dates, t.LeapAtMinuteEnd := by
  have hshown (hnumbers : ∀ x ∈ c.numbers, g x = x) : (c.mapNumbers g).asShown = c.asShown := by
    -- Stored forms tell conditions apart as they are shown, and here they are the same.
    have hjson : (c.mapNumbers g).toJson = c.toJson := by
      rw [← mapReals_toJson]
      refine Json.mapReals_eq_self _ fun x hx => ?_
      rw [hnumbers x (real_mem_atoms_condition.mp hx)]
    have hdecode := (c.mapNumbers g).decode_toJson .written .text
    rw [hjson, c.decode_toJson] at hdecode
    exact (Except.ok.inj hdecode).symm
  rw [← asShown_eq_self_iff]
  constructor
  · intro hsame
    have hmap : c.numbers.map g = c.numbers.map id := by
      rw [← numbers_mapNumbers, ← numbers_asShown, hsame, List.map_id]
    have hnumbers := List.map_inj_left.mp hmap
    exact ⟨hnumbers, (hshown hnumbers).symm.trans hsame⟩
  · intro hsame
    obtain ⟨hnumbers, hdates⟩ := hsame
    exact (hshown hnumbers).trans hdates

/-- **When a stored condition comes back from its text.** A condition that is
    compiled with the standard encoder is loaded from the compact text it is
    stored as, with every number as the reader finds it and every date as it
    is shown, just when the text is nested less than 128 levels deep. So it
    comes back as it was when its text is not nested deeper, all its numbers
    are found again, as all numbers with few digits are, and none of its
    dates lies in a leap second that does not end a minute. The nesting limit
    allows conditions of height 129, but each negation takes one level of the
    text and each connective two: the texts of these are nested 130 to 260
    levels deep and are all refused. Those of conditions of height 62 never
    are. -/
theorem ofText_compact {ns : Namespace} {out : CompiledExpression}
    (hrendered : c.render .standard ns = .ok out) :
    (c.toJson.height < Json.fullRoom →
      ofText c.toJson.compact = .ok (c.mapNumbers Json.rereadAs).asShown) ∧
    (Json.fullRoom ≤ c.toJson.height → ∃ offset,
      ofText c.toJson.compact = .error (.json ⟨.nestingTooDeep, offset⟩)) ∧
    (ofText c.toJson.compact = .ok c ↔
      c.toJson.height < Json.fullRoom ∧ (∀ x ∈ c.numbers, Json.Reread x) ∧
        ∀ t ∈ c.dates, t.LeapAtMinuteEnd) ∧
    (∀ x, Json.FewDigits x → Json.Reread x) ∧
    c.depth + 1 ≤ c.toJson.height ∧ c.toJson.height ≤ 2 * c.depth + 2 := by
  have hread := (render_eq_ok_iff.mp hrendered).1.digitsRead_eq
  obtain ⟨hlow, hhigh⟩ := ofText_of_digitsRead hread
  refine ⟨hlow, hhigh, ?_, fun _ => Json.reread_of_fewDigits, c.height_bounds⟩
  -- A condition comes back as it was just when each of its numbers and dates does.
  have hreread : (∀ x ∈ c.numbers, Json.Reread x) ↔ ∀ x ∈ c.numbers, Json.rereadAs x = x := by
    refine forall₂_congr fun x hx => ?_
    rw [Json.reread_iff, hread x hx]
    simp
  rw [hreread, ← asShown_mapNumbers_eq_self_iff]
  rcases Nat.lt_or_ge c.toJson.height Json.fullRoom with hheight | hheight
  · rw [hlow hheight, Except.ok.injEq, and_iff_right hheight]
  · obtain ⟨offset, herror⟩ := hhigh hheight
    rw [herror]
    simp [Nat.not_lt.mpr hheight]

/-- One tenth comes back. The greatest odd number that is a double comes back
    as the even number below it. An attribute behind 125 negations comes
    back, and behind 126 it is compiled but not loaded. -/
theorem ofText_compact_numbers_and_depth :
    let test (x : Binary64) : Condition := .leaf (.compare "a" .eq (.number x))
    let tree (count : Nat) : Condition :=
      Nat.repeat Expression.negation count (.leaf (.present "a"))
    let tenth : Binary64 := .finite false ⟨4591870180066957722, by decide⟩
    (tenth.dataText = "0.1" ∧ ofText (test tenth).toJson.compact = .ok (test tenth)) ∧
      ((∃ out, (test (.ofInt 9007199254740991)).render .standard (.root "C") = .ok out) ∧
        ofText (test (.ofInt 9007199254740991)).toJson.compact =
          .ok (test (.ofInt 9007199254740990))) ∧
      ofText (tree 125).toJson.compact = .ok (tree 125) ∧
      (∃ out, (tree 126).render .standard (.root "C") = .ok out) ∧
        ∃ offset, ofText (tree 126).toJson.compact = .error (.json ⟨.nestingTooDeep, offset⟩) := by
  intro test tree tenth
  have hrendered (c : Condition) (hok : (c.render .standard (.root "C")).isOk = true) :
      ∃ out, c.render .standard (.root "C") = .ok out := by
    cases hc : c.render .standard (.root "C") with
    | ok out => exact ⟨out, rfl⟩
    | error e =>
      rw [hc] at hok
      cases hok
  have htenth := hrendered (test tenth) (by decide +kernel)
  have hodd := hrendered (test (.ofInt 9007199254740991)) (by decide +kernel)
  have hshallow := hrendered (tree 125) (by decide +kernel)
  have hdeep := hrendered (tree 126) (by decide +kernel)
  refine ⟨⟨by decide +kernel, ?_⟩, ⟨hodd, ?_⟩, ?_, hdeep, ?_⟩
  · obtain ⟨out, hout⟩ := htenth
    obtain ⟨-, -, hiff, hfew, -⟩ := ofText_compact hout
    refine hiff.mpr ⟨by decide, fun x hx => hfew x ?_, by decide⟩
    cases List.mem_singleton.mp hx
    exact ⟨by decide +kernel, by decide +kernel⟩
  · obtain ⟨out, hout⟩ := hodd
    have hread : Json.rereadAs (.ofInt 9007199254740991) = .ofInt 9007199254740990 := by
      decide +kernel
    obtain ⟨hloaded, -⟩ := ofText_compact hout
    rw [hloaded (by decide)]
    show Except.ok (test (Json.rereadAs (.ofInt 9007199254740991))) = _
    rw [hread]
  · obtain ⟨out, hout⟩ := hshallow
    obtain ⟨-, -, hiff, -⟩ := ofText_compact hout
    have hnumbers : (tree 125).numbers = [] := by decide +kernel
    have hdates : (tree 125).dates = [] := by decide +kernel
    refine hiff.mpr ⟨by decide +kernel, ?_, ?_⟩
    · rw [hnumbers]
      exact List.forall_mem_nil _
    · rw [hdates]
      exact List.forall_mem_nil _
  · obtain ⟨out, hout⟩ := hdeep
    exact (ofText_compact hout).2.1 (by decide +kernel)

end Condition

end CondExpr
