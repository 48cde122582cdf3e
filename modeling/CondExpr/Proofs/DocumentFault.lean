import CondExpr.Document.Reader
import CondExpr.Proofs.Fault
import Mathlib.Data.List.Basic

/-! # First faults of documents

  The reader of documents stops at the first fault of a walk over the
  document: a node comes before what is below it, left before right, and at
  each node one thing is looked at after the other. Here the walk is written
  down without reading anything: as the list of all looks that are taken on
  it, each with what shows there. Whether there is an objection to a look
  depends on nothing else. The reader fails just when there is an objection
  somewhere, and with the first one; so what comes after that look has no
  influence on the error.
-/

namespace CondExpr.Document

/-! ## Section 1: Looks -/

/-- What shows of a value that is not gone into: a text as it is, and of
    everything else the kind. -/
inductive Face where
  | text (value : String)
  | other (kind : JsonKind)
  deriving DecidableEq, Repr

/-- The face of a value. -/
def face : Json → Face
  | .text s => .text s
  | v => .other v.kind

/-- One look at a document. -/
inductive Look where
  /-- How many connectives and negations are above a node. -/
  | level (above : Nat)
  /-- What stands as a node and is neither an array nor an object. -/
  | stray (kind : JsonKind)
  /-- How many keys an object has. -/
  | keyCount (count : Nat)
  /-- The only key of an object. -/
  | key (key : String)
  /-- What stands between the operands of a connective. -/
  | connective (found : Face)
  /-- The first item of an array, if there is one. -/
  | field (found : Option Face)
  /-- The item after the attribute name, if there is one. -/
  | operator (field : String) (found : Option Face)
  /-- The text of the operator. -/
  | form (token : String)
  /-- How many operands an operator has. -/
  | operandCount (field : String) (form : PredicateForm) (count : Nat)
  /-- An operand that may be any scalar. -/
  | scalar (field : String) (kind : JsonKind)
  /-- The beginning of a text. -/
  | beginning (field : String) (kind : JsonKind)
  /-- The comparator of a size test. -/
  | comparator (field : String) (found : Face)
  /-- The bound of a size test. -/
  | bound (field : String) (kind : JsonKind)
  /-- A list of values, and whether it is empty. -/
  | values (field : String) (kind : JsonKind) (empty : Bool)
  deriving DecidableEq, Repr

/-- What is wrong with what shows. -/
def Look.objection? : Look → Option DocumentError
  | .level above => if nestingLimit < above then some (.shape .tooDeep) else none
  | .stray kind => some (.shape (.notNode kind))
  | .keyCount count => if count = 1 then none else some (.shape (.keyCount count))
  | .key name => if name = "NOT" then none else some (.shape .notNegation)
  | .connective (.text token) =>
    if (Connective.ofToken? token).isSome then none else some (.unsupportedOperator token)
  | .connective (.other kind) => some (.shape (.connectiveKind kind))
  | .field none => some (.shape .noField)
  | .field (some (.text name)) => if name = "" then some (.shape .emptyField) else none
  | .field (some (.other kind)) => some (.shape (.fieldKind kind))
  | .operator name none => some (.shape (.noOperator name))
  | .operator _ (some (.text _)) => none
  | .operator name (some (.other kind)) => some (.shape (.operatorKind name kind))
  | .form token =>
    if (PredicateForm.ofToken? token).isSome then none else some (.unsupportedOperator token)
  | .operandCount name expected count =>
    if count = expected.arity then none
    else some (.arity name expected.token expected.arity count)
  | .scalar _ .text | .scalar _ .number | .scalar _ .boolean => none
  | .scalar name kind => some (.operand name (.notScalar kind))
  | .beginning _ .text => none
  | .beginning name kind => some (.operand name (.beginning kind))
  | .comparator _ (.text token) =>
    if (Comparator.ofToken? token).isSome then none else some (.unsupportedOperator token)
  | .comparator name (.other kind) => some (.operand name (.comparator kind))
  | .bound _ .number => none
  | .bound name kind => some (.operand name (.bound kind))
  | .values name .array empty => if empty then some (.operand name .noValues) else none
  | .values name kind _ => some (.operand name (.values kind))

/-- The first objection of a row of looks. -/
def objection? (looks : List Look) : Option DocumentError := looks.findSome? Look.objection?

@[simp] theorem objection?_nil : objection? [] = none := rfl

@[simp] theorem objection?_cons (look : Look) (rest : List Look) :
    objection? (look :: rest) = look.objection?.or (objection? rest) := by
  unfold objection?
  rw [List.findSome?_cons]
  cases look.objection? <;> rfl

@[simp] theorem objection?_append (front back : List Look) :
    objection? (front ++ back) = (objection? front).or (objection? back) :=
  List.findSome?_append

/-! ## Section 2: Looks at a predicate -/

/-- The items of an array. -/
def items : Json → List Json
  | .array items => items
  | _ => []

/-- The looks at values of which each may be any scalar. -/
def scalarLooks (field : String) (values : List Json) : List Look :=
  values.map fun v => .scalar field v.kind

/-- The looks at the operands of an operator, from left to right. -/
def operandLooks (field : String) : PredicateForm → List Json → List Look
  | .compare _, operands | .between, operands | .contains, operands => scalarLooks field operands
  | .beginsWith, operands => operands.map fun v => .beginning field v.kind
  | .present, _ | .absent, _ => []
  | .size, op :: bounds =>
    .comparator field (face op) :: bounds.map fun v => .bound field v.kind
  | .size, [] => []
  | .oneOf, lists => lists.flatMap fun v =>
    .values field v.kind (items v).isEmpty :: scalarLooks field (items v)

/-- The looks at what follows an attribute name. -/
def testLooks (field : String) (rest : List Json) : List Look :=
  .operator field (rest.head?.map face) ::
    match rest with
    | .text token :: operands =>
      .form token ::
        match PredicateForm.ofToken? token with
        | some form =>
          .operandCount field form operands.length :: operandLooks field form operands
        | none => []
    | _ => []

/-- The looks at an array that stands for a predicate. -/
def predicateLooks (parts : List Json) : List Look :=
  .field (parts.head?.map face) ::
    match parts with
    | .text field :: rest => testLooks field rest
    | _ => []

section Predicates

variable {field : String} {form : PredicateForm} {operands parts : List Json}

theorem fault?_readScalar (v : Json) :
    fault? (readScalar field v) = (Look.scalar field v.kind).objection? := by
  cases v <;> rfl

theorem fault?_mapM_readScalar (values : List Json) :
    fault? (values.mapM (readScalar field)) = objection? (scalarLooks field values) := by
  unfold objection? scalarLooks
  rw [fault?_mapM, List.findSome?_map]
  congr 1
  funext v
  exact fault?_readScalar v

theorem fault?_readComparator (v : Json) :
    fault? (readComparator field v) = (Look.comparator field (face v)).objection? := by
  cases v with
  | text token =>
    rw [readComparator, face, Look.objection?]
    cases Comparator.ofToken? token <;> rfl
  | _ => rfl

theorem fault?_readBound (v : Json) :
    fault? (readBound field v) = (Look.bound field v.kind).objection? := by
  cases v <;> rfl

/-- Operands of a wrong number are not looked at. -/
theorem readOperands_of_length_ne (hcount : operands.length ≠ form.arity) :
    readOperands field form operands =
      .error (.arity field form.token form.arity operands.length) := by
  unfold readOperands
  split
  all_goals first | rfl | exact absurd rfl hcount

/-- The right number of operands are looked at one after the other. -/
theorem fault?_readOperands_of_length_eq (hcount : operands.length = form.arity) :
    fault? (readOperands field form operands) = objection? (operandLooks field form operands) := by
  cases form with
  | present | absent =>
    obtain rfl := List.length_eq_zero_iff.mp hcount
    rfl
  | compare op =>
    obtain ⟨v, rfl⟩ := List.length_eq_one_iff.mp hcount
    rw [readOperands, fault?_bind fun value _ => fault?_pure _, fault?_readScalar]
    simp [operandLooks, scalarLooks]
  | contains =>
    obtain ⟨v, rfl⟩ := List.length_eq_one_iff.mp hcount
    rw [readOperands, fault?_bind fun value _ => fault?_pure _, fault?_readScalar]
    simp [operandLooks, scalarLooks]
  | beginsWith =>
    obtain ⟨v, rfl⟩ := List.length_eq_one_iff.mp hcount
    cases v <;> rfl
  | between =>
    obtain ⟨v, w, rfl⟩ := List.length_eq_two.mp hcount
    have hhigh (low : Scalar) :
        fault? (readScalar field w >>= fun high => pure (Predicate.between field low high)) =
          (Look.scalar field w.kind).objection? := by
      rw [fault?_bind fun high _ => fault?_pure _, Option.or_none, fault?_readScalar]
    rw [readOperands, fault?_bind fun low _ => hhigh low, fault?_readScalar]
    simp [operandLooks, scalarLooks]
  | size =>
    obtain ⟨v, w, rfl⟩ := List.length_eq_two.mp hcount
    have hbound (op : Comparator) :
        fault? (readBound field w >>= fun bound => pure (Predicate.size field op bound)) =
          (Look.bound field w.kind).objection? := by
      rw [fault?_bind fun bound _ => fault?_pure _, Option.or_none, fault?_readBound]
    rw [readOperands, fault?_bind fun op _ => hbound op, fault?_readComparator]
    simp [operandLooks]
  | oneOf =>
    obtain ⟨v, rfl⟩ := List.length_eq_one_iff.mp hcount
    cases v with
    | array values =>
      -- Only a list that is not empty is gone through.
      rcases values with _ | ⟨first, others⟩
      · rfl
      · rw [readOperands, fault?_bind fun values _ => fault?_pure _, fault?_mapM_readScalar]
        · simp [operandLooks, items, Json.kind, Look.objection?]
        · exact List.cons_ne_nil _ _
    | _ => rfl

/-- The operands of an operator are refused because of the first look that
    there is an objection to, beginning with their number. -/
theorem fault?_readOperands (field : String) (form : PredicateForm) (operands : List Json) :
    fault? (readOperands field form operands) =
      objection?
        (.operandCount field form operands.length :: operandLooks field form operands) := by
  rw [objection?_cons, Look.objection?]
  by_cases hcount : operands.length = form.arity
  · rw [if_pos hcount, Option.none_or, fault?_readOperands_of_length_eq hcount]
  · rw [if_neg hcount, readOperands_of_length_ne hcount]
    rfl

theorem fault?_readTest (field : String) (rest : List Json) :
    fault? (readTest field rest) = objection? (testLooks field rest) := by
  rcases rest with _ | ⟨v, operands⟩
  · rfl
  · cases v with
    | text token =>
      rw [readTest, testLooks]
      cases hform : PredicateForm.ofToken? token with
      | none => simp [face, Look.objection?, hform]
      | some form => simp [face, Look.objection?, hform, fault?_readOperands]
    | _ => rfl

/-- A predicate is refused because of the first look at it that there is an
    objection to. -/
theorem fault?_readPredicate (parts : List Json) :
    fault? (readPredicate parts) = objection? (predicateLooks parts) := by
  rcases parts with _ | ⟨v, rest⟩
  · rfl
  · cases v with
    | text field =>
      rw [readPredicate, predicateLooks, fault?_ite_error, objection?_cons, fault?_readTest]
      rfl
    | _ => rfl

end Predicates

theorem fault?_readConnective (v : Json) :
    fault? (readConnective v) = (Look.connective (face v)).objection? := by
  cases v with
  | text token =>
    rw [readConnective, face, Look.objection?]
    cases Connective.ofToken? token <;> rfl
  | _ => rfl

/-! ## Section 3: The walk -/

/-- The nodes right below a node, from left to right. -/
def below : Json → List Json
  | .object [(_, inner)] => [inner]
  | .array [left, _, right] => if isNode left then [left, right] else []
  | _ => []

/-- The node that a path leads to. -/
def nodeAt? (v : Json) : List Nat → Option Json
  | [] => some v
  | index :: path => (below v)[index]?.bind fun w => nodeAt? w path

/-- The visits to a child, as they are seen from its parent. -/
def under (index : Nat) (visits : List (List Nat × Json)) : List (List Nat × Json) :=
  visits.map fun visit => (index :: visit.1, visit.2)

/-- The nodes of a document and the paths to them, in the order of the walk:
    a node before what is below it, left before right. -/
def walk : Json → List (List Nat × Json)
  | .object [(key, inner)] => ([], .object [(key, inner)]) :: under 0 (walk inner)
  | .array [left, op, right] =>
    ([], .array [left, op, right]) ::
      if isNode left then under 0 (walk left) ++ under 1 (walk right) else []
  | v => [([], v)]

/-- The looks at a node, apart from its level and the nodes below. -/
def nodeLooks : Json → List Look
  | .object [(key, _)] => [.keyCount 1, .key key]
  | .object members => [.keyCount members.length]
  | .array [left, op, right] =>
    if isNode left then [.connective (face op)] else predicateLooks [left, op, right]
  | .array parts => predicateLooks parts
  | v => [.stray v.kind]

/-- The looks at a node that has `above` connectives and negations above it,
    apart from the nodes below. -/
def ownLooks (above : Nat) (v : Json) : List Look := .level above :: nodeLooks v

/-- The looks at a document with `above` connectives and negations above it,
    node by node. -/
def looksBelow (above : Nat) (v : Json) : List Look :=
  (walk v).flatMap fun visit => ownLooks (above + visit.1.length) visit.2

/-- The looks at a document, in the order of the walk. -/
def looks (v : Json) : List Look :=
  (walk v).flatMap fun visit => ownLooks visit.1.length visit.2

/-! ## Section 4: The order of the walk -/

theorem mem_under_iff {index : Nat} {visits : List (List Nat × Json)} {path : List Nat} {w : Json} :
    (path, w) ∈ under index visits ↔ ∃ rest, path = index :: rest ∧ (rest, w) ∈ visits := by
  simp [under, eq_comm (a := path), and_comm]

/-- The walk visits exactly the nodes that paths lead to. -/
theorem mem_walk_iff {v w : Json} {path : List Nat} :
    (path, w) ∈ walk v ↔ nodeAt? v path = some w := by
  -- The first step of a path tells which part of the walk it belongs to.
  fun_induction walk v generalizing path with
  | case1 key inner ih =>
    rcases path with _ | ⟨_ | index, path⟩ <;>
      simp [nodeAt?, mem_under_iff, below, ih, eq_comm (a := w)]
  | case2 left op right ihl ihr =>
    by_cases hnode : isNode left = true
    · rcases path with _ | ⟨_ | _ | index, path⟩ <;>
        simp [nodeAt?, mem_under_iff, below, ihl, ihr, hnode, eq_comm (a := w)]
    · rcases path with _ | ⟨index, path⟩ <;> simp [nodeAt?, below, hnode, eq_comm (a := w)]
  | case3 v hobject harray =>
    have hbelow : below v = [] := by
      unfold below
      split
      · exact absurd rfl (hobject _ _)
      · exact absurd rfl (harray _ _ _)
      · rfl
    rcases path with _ | ⟨index, path⟩ <;> simp [nodeAt?, hbelow, eq_comm (a := w)]

/-- The visits go from smaller to greater paths. Paths are compared step by
    step, and a path comes before those that go on from it. -/
def Ascending (visits : List (List Nat × Json)) : Prop :=
  visits.Pairwise fun visit later => visit.1 < later.1

theorem Ascending.under {visits : List (List Nat × Json)} (h : Ascending visits) (index : Nat) :
    Ascending (under index visits) := by
  apply List.pairwise_map.mpr
  apply h.imp
  intro visit later hlt
  exact List.cons_lt_cons_self.mpr hlt

theorem nil_lt_of_mem_under {index : Nat} {visits : List (List Nat × Json)} :
    ∀ visit ∈ under index visits, [] < visit.1 := by
  intro visit hvisit
  obtain ⟨_, _, rfl⟩ := List.mem_map.mp hvisit
  exact List.nil_lt_cons _ _

/-- A node comes before what is below it, and left before right. -/
theorem walk_ascending (v : Json) : Ascending (walk v) := by
  fun_induction walk v with
  | case1 key inner ih => exact List.pairwise_cons.mpr ⟨nil_lt_of_mem_under, ih.under 0⟩
  | case2 left op right ihl ihr =>
    split
    · refine List.pairwise_cons.mpr ⟨?_, List.pairwise_append.mpr ⟨ihl.under 0, ihr.under 1, ?_⟩⟩
      · intro visit hvisit
        rcases List.mem_append.mp hvisit with hleft | hright
        · exact nil_lt_of_mem_under visit hleft
        · exact nil_lt_of_mem_under visit hright
      · intro visit hleft later hright
        obtain ⟨_, _, rfl⟩ := List.mem_map.mp hleft
        obtain ⟨_, _, rfl⟩ := List.mem_map.mp hright
        exact List.Lex.rel Nat.zero_lt_one
    · exact List.pairwise_singleton _ _
  | case3 v hobject harray => exact List.pairwise_singleton _ _

/-! ## Section 5: The first objection decides -/

section Looks

variable {above : Nat}

theorem flatMap_under (index above : Nat) (v : Json) :
    ((under index (walk v)).flatMap fun visit => ownLooks (above + visit.1.length) visit.2) =
      looksBelow (above + 1) v := by
  simp [under, looksBelow, List.flatMap_map, Nat.add_assoc, Nat.add_comm 1]

theorem looksBelow_negation (key : String) (inner : Json) :
    looksBelow above (.object [(key, inner)]) =
      .level above :: .keyCount 1 :: .key key :: looksBelow (above + 1) inner := by
  rw [looksBelow, walk, List.flatMap_cons, flatMap_under]
  rfl

theorem looksBelow_join {left op right : Json} (hnode : isNode left = true) :
    looksBelow above (.array [left, op, right]) =
      .level above :: .connective (face op) ::
        (looksBelow (above + 1) left ++ looksBelow (above + 1) right) := by
  rw [looksBelow, walk, if_pos hnode, List.flatMap_cons, List.flatMap_append, flatMap_under,
    flatMap_under]
  simp [ownLooks, nodeLooks, hnode]

/-- Where no node is below, there are no looks but those at the node. -/
theorem looksBelow_of_below_eq_nil {v : Json} (hbelow : below v = []) :
    looksBelow above v = ownLooks above v := by
  have hwalk : walk v = [([], v)] := by
    unfold walk
    split
    · cases hbelow
    · rename_i left op right
      rw [below] at hbelow
      split
      · rename_i hnode
        rw [if_pos hnode] at hbelow
        cases hbelow
      · rfl
    · rfl
  rw [looksBelow, hwalk, List.flatMap_singleton]
  rfl

/-- The level of a node is looked at before anything else. -/
theorem exists_looksBelow_eq_cons (above : Nat) (v : Json) :
    ∃ rest, looksBelow above v = .level above :: rest := by
  have hwalk : ∃ visits, walk v = ([], v) :: visits := by
    unfold walk
    split <;> exact ⟨_, rfl⟩
  obtain ⟨visits, hwalk⟩ := hwalk
  rw [looksBelow, hwalk, List.flatMap_cons]
  exact ⟨_, rfl⟩

/-- An array that is no connective is read, and looked at, as a predicate. -/
theorem array_leaf {parts : List Json}
    (hleaf : ∀ left op right, parts = [left, op, right] → isNode left = false) :
    (∀ room, readNode (room + 1) (.array parts) =
      (do return .leaf (← readPredicate parts))) ∧
    looksBelow above (.array parts) = .level above :: predicateLooks parts := by
  rcases parts with _ | ⟨left, _ | ⟨op, _ | ⟨right, _ | ⟨more, rest⟩⟩⟩⟩
  case cons.cons.cons.nil =>
    have hnode : ¬ isNode left = true := by simp [hleaf left op right rfl]
    refine ⟨fun room => ?_, ?_⟩
    · rw [readNode, if_neg hnode]
    · rw [looksBelow_of_below_eq_nil (by rw [below, if_neg hnode]), ownLooks, nodeLooks,
        if_neg hnode]
  all_goals exact ⟨fun _ => rfl, looksBelow_of_below_eq_nil rfl⟩

/-- A document is refused because of the first look that there is an
    objection to. -/
theorem fault?_readNode {room : Nat} (hroom : above + room = nestingLimit + 1) (v : Json) :
    fault? (readNode room v) = objection? (looksBelow above v) := by
  induction room generalizing above v with
  | zero =>
    obtain ⟨rest, hlooks⟩ := exists_looksBelow_eq_cons above v
    have hlevel : (Look.level above).objection? = some (.shape .tooDeep) := if_pos (by omega)
    rw [hlooks, objection?_cons, hlevel]
    rfl
  | succ room ih =>
    have hlevel : (Look.level above).objection? = none := if_neg (by omega)
    have hbelow (w : Json) : fault? (readNode room w) = objection? (looksBelow (above + 1) w) :=
      ih (by omega) w
    cases v with
    | object members =>
      rcases members with _ | ⟨⟨key, inner⟩, _ | ⟨second, rest⟩⟩
      · rw [looksBelow_of_below_eq_nil rfl, ownLooks, objection?_cons, hlevel]
        rfl
      · rw [looksBelow_negation, objection?_cons, hlevel, readNode]
        by_cases hkey : key = "NOT"
        · rw [if_pos hkey, fault?_bind fun inner _ => fault?_pure _, hbelow]
          simp [Look.objection?, hkey]
        · rw [if_neg hkey]
          simp [Look.objection?, hkey]
      · rw [looksBelow_of_below_eq_nil rfl, ownLooks, objection?_cons, hlevel]
        simp [readNode, nodeLooks, Look.objection?]
    | array parts =>
      by_cases hjoin : ∃ left op right, parts = [left, op, right] ∧ isNode left = true
      · obtain ⟨left, op, right, rfl, hnode⟩ := hjoin
        have hright (connective : Connective) (c : Condition) :
            fault? (readNode room right >>= fun d => pure (Expression.join c connective d)) =
              objection? (looksBelow (above + 1) right) := by
          rw [fault?_bind fun d _ => fault?_pure _, Option.or_none, hbelow]
        have hleft (connective : Connective) :
            fault? (readNode room left >>= fun c => readNode room right >>= fun d =>
                pure (Expression.join c connective d)) =
              objection? (looksBelow (above + 1) left ++ looksBelow (above + 1) right) := by
          rw [fault?_bind fun c _ => hright connective c, hbelow, objection?_append]
        rw [readNode, if_pos hnode, fault?_bind fun connective _ => hleft connective,
          fault?_readConnective, looksBelow_join hnode, objection?_cons, hlevel, objection?_cons]
        rfl
      · have hleaf : ∀ left op right, parts = [left, op, right] → isNode left = false := by
          intro left op right hparts
          rw [← Bool.not_eq_true]
          exact fun hnode => hjoin ⟨left, op, right, hparts, hnode⟩
        obtain ⟨hread, hlooks⟩ := @array_leaf above parts hleaf
        rw [hread, fault?_bind fun p _ => fault?_pure _, fault?_readPredicate, hlooks,
          objection?_cons, hlevel, Option.or_none]
        rfl
    | _ =>
      rw [looksBelow_of_below_eq_nil rfl, ownLooks, objection?_cons, hlevel]
      rfl

end Looks

/-- A document is read when there is an objection to no look at it, and
    otherwise refused because of the first. -/
theorem fault?_read (v : Json) : fault? (read v) = objection? (looks v) := by
  have hlooks : looks v = looksBelow 0 v := by simp [looks, looksBelow]
  rw [hlooks, read]
  exact fault?_readNode (Nat.zero_add _) v

/-- The first objection comes after looks without one, and whatever comes
    behind it does not matter. -/
theorem objection?_eq_some_iff {row : List Look} {e : DocumentError} :
    objection? row = some e ↔
      ∃ front look back, row = front ++ look :: back ∧
        (∀ earlier ∈ front, earlier.objection? = none) ∧ look.objection? = some e := by
  unfold objection?
  rw [List.findSome?_eq_some_iff]
  constructor
  · intro hsplit
    obtain ⟨front, look, back, hrow, hlook, hfront⟩ := hsplit
    exact ⟨front, look, back, hrow, hfront, hlook⟩
  · intro hsplit
    obtain ⟨front, look, back, hrow, hfront, hlook⟩ := hsplit
    exact ⟨front, look, back, hrow, hlook, hfront⟩

/-- **The first objection decides.** The walk over a document visits the
    nodes that paths lead to, a node before what is below it and left before
    right. At each node it looks at the level first. At an object it then
    looks at the number of keys and at the key; at a connective, at its token;
    at any other array, at the attribute name, at the kind and the text of the
    operator, at the number of operands, and at the operands from left to
    right. A document cannot be read just when there is an objection to one of
    these looks, and the error is the first objection. So documents that show
    the same up to the first look with an objection give the same error,
    whatever comes after it. -/
theorem read_first_fault :
    (∀ v, Ascending (walk v) ∧ ∀ path w, (path, w) ∈ walk v ↔ nodeAt? v path = some w) ∧
    (∀ v e, read v = .error e ↔
      ∃ front look back, looks v = front ++ look :: back ∧
        (∀ earlier ∈ front, earlier.objection? = none) ∧ look.objection? = some e) ∧
    ∀ v w front look e, (∀ earlier ∈ front, earlier.objection? = none) →
      look.objection? = some e → front ++ [look] <+: looks v → front ++ [look] <+: looks w →
      read v = .error e ∧ read w = .error e := by
  have hread (v : Json) (e : DocumentError) : read v = .error e ↔
      ∃ front look back, looks v = front ++ look :: back ∧
        (∀ earlier ∈ front, earlier.objection? = none) ∧ look.objection? = some e := by
    rw [← fault?_eq_some_iff, fault?_read, objection?_eq_some_iff]
  have hshown (v : Json) (front : List Look) (look : Look) (e : DocumentError)
      (hfront : ∀ earlier ∈ front, earlier.objection? = none) (hlook : look.objection? = some e)
      (hshows : front ++ [look] <+: looks v) : read v = .error e := by
    obtain ⟨back, hlooks⟩ := hshows
    refine (hread v e).mpr ⟨front, look, back, ?_, hfront, hlook⟩
    rw [← hlooks, List.append_assoc]
    rfl
  refine ⟨?_, hread, ?_⟩
  · intro v
    exact ⟨walk_ascending v, fun _ _ => mem_walk_iff⟩
  · intro v w front look e hfront hlook hv hw
    exact ⟨hshown v front look e hfront hlook hv, hshown w front look e hfront hlook hw⟩

/-- Two documents whose right operands have nothing in common: both are
    refused because of the upper end of the range to the left. An unknown
    connective comes before all that, though it stands behind the range. -/
theorem read_first_fault_range_and_connective :
    (read (.array [.array [.text "a", .text "between", .integer 1, .null], .text "OR",
        .boolean true]) = .error (.operand "a" (.notScalar .null)) ∧
      read (.array [.array [.text "a", .text "between", .integer 7, .null], .text "OR",
        .object [("NOT", .array []), ("OR", .null)]]) = .error (.operand "a" (.notScalar .null))) ∧
    read (.array [.array [.text "a", .text "between", .integer 1, .null], .text "XOR",
        .boolean true]) = .error (.unsupportedOperator "XOR") := by
  obtain ⟨_, hread, hshown⟩ := read_first_fault
  refine ⟨hshown _ _ [.level 0, .connective (.text "OR"), .level 1, .field (some (.text "a")),
    .operator "a" (some (.text "between")), .form "between", .operandCount "a" .between 2,
    .scalar "a" .number] (.scalar "a" .null) _ (by decide) rfl ⟨_, rfl⟩ ⟨_, rfl⟩, ?_⟩
  exact (hread _ _).mpr ⟨[.level 0], .connective (.text "XOR"), _, rfl, by decide, rfl⟩

end CondExpr.Document
