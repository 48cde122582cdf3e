import CondExpr.Proofs.Coverage

/-! # Reading compiled expressions back

  The text of a compiled expression says where its leaves are and of which
  shape, its tables say what the placeholders stand for. The reader here
  takes the text apart from left to right: parentheses and `NOT` are read
  as they come, and a predicate is told by the text before its first
  placeholder and the word after it, and then read as what it would be
  written as. In this way the closing parenthesis that no opening one
  belongs to is read along with its size test, and the `AND` of a range
  with its range.

  The reader knows neither the condition nor the root token nor the
  encoder. It gives back the condition with its operands encoded; so no two
  conditions that differ in more than what the encoder makes equal have the
  same compiled expression.
-/

namespace CondExpr

/-! ## Section 1: The reader -/

/-- What follows a text that has to stand first. -/
def skip? (text : String) (cs : List Char) : Option (List Char) := text.toList.isPrefixOf? cs

/-- The characters up to a blank. -/
def firstWord (cs : List Char) : String := .ofList (cs.takeWhile fun c => c ≠ ' ')

/-- How many values are listed before the next closing parenthesis. -/
def itemCount (cs : List Char) : Nat :=
  (placeholdersIn (cs.takeWhile fun c => c ≠ ')')).length

/-- The text of a predicate before its name placeholder. -/
def Shape.lead : Shape → String
  | .compare _ | .between | .oneOf _ => ""
  | .beginsWith => "begins_with ("
  | .contains => "contains ("
  | .present => "attribute_exists ("
  | .absent => "attribute_not_exists ("
  | .size _ => "size("

/-- The shape of a predicate, told by what stands before its name
    placeholder and by what comes after it. -/
def Shape.told? (lead : String) (after : List Char) : Option Shape :=
  match lead with
  | "" =>
    match firstWord (after.drop 1) with
    | "BETWEEN" => some .between
    | "IN" => some (.oneOf (itemCount after))
    | word => (Comparator.ofToken? word).map .compare
  | "begins_with (" => some .beginsWith
  | "contains (" => some .contains
  | "attribute_exists (" => some .present
  | "attribute_not_exists (" => some .absent
  | "size(" => (Comparator.ofToken? (firstWord (after.drop 2))).map .size
  | _ => none

/-- Reads a predicate. -/
def readPredicate? (cs : List Char) : Option ((Namespace × Shape) × List Char) := do
  let lead := cs.takeWhile fun c => c ≠ '#'
  let behind := (cs.dropWhile fun c => c ≠ '#').drop 1
  let ns := Namespace.root (.ofList (behind.takeWhile isTokenChar))
  let shape ← Shape.told? (.ofList lead) (behind.dropWhile isTokenChar)
  -- Whatever has been told, the text has to be what that is written as.
  let rest ← skip? (written (shape.pieces ns)) cs
  return ((ns, shape), rest)

/-- Reads what joins two expressions. -/
def readConnective? (cs : List Char) : Option (Connective × List Char) :=
  Connective.all.findSome? fun op => (skip? (") " ++ op.token ++ " (") cs).map (op, ·)

/-- Reads an expression that nests no deeper than the fuel. -/
def readLayout? : Nat → List Char → Option (Layout × List Char)
  | 0, _ => none
  | fuel + 1, cs =>
    match cs.head? with
    | some 'N' => do
      let cs ← skip? "NOT (" cs
      let (inner, cs) ← readLayout? fuel cs
      let cs ← skip? ")" cs
      return (.negation inner, cs)
    | some '(' => do
      let cs ← skip? "(" cs
      let (left, cs) ← readLayout? fuel cs
      let (op, cs) ← readConnective? cs
      let (right, cs) ← readLayout? fuel cs
      let cs ← skip? ")" cs
      return (.join left op right, cs)
    | _ => do
      -- No predicate begins with an `N` or a parenthesis.
      let (leaf, cs) ← readPredicate? cs
      return (.leaf leaf, cs)

/-! ## Section 2: Shapes are told -/

@[simp] theorem skip?_append (text : String) (rest : List Char) :
    skip? text (text.toList ++ rest) = some rest := by
  unfold skip?
  rw [List.isPrefixOf?_eq_some_iff_append_eq]

theorem firstWord_append {word : String} {rest : List Char} (h : ' ' ∉ word.toList) :
    firstWord (word.toList ++ ' ' :: rest) = word := by
  have hrun : ∀ c ∈ word.toList, (decide (c ≠ ' ')) = true := by
    intro c hc
    exact decide_eq_true fun heq => h (heq ▸ hc)
  unfold firstWord
  rw [takeWhile_run hrun (stops_cons.mpr (by decide)), String.ofList_toList]

private theorem close_notMem_operands {ns : Namespace} (hns : ns.WellFormed)
    (slots : List Slot) :
    ')' ∉ (written ((slots.map (Piece.operand ns)).intersperse (.plain ", "))).toList := by
  have hoperand (slot : Slot) : ')' ∉ (ns.operand slot).toList := by
    intro hmem
    rw [ns.toList_operand] at hmem
    rcases List.mem_cons.mp hmem with hcolon | hrun
    · exact absurd hcolon (by decide)
    · exact absurd (hns.operand_tokenChars slot ')' hrun) (by decide)
  induction slots with
  | nil => simp
  | cons slot rest ih =>
    cases rest with
    | nil => simpa [Piece.text] using hoperand slot
    | cons next rest =>
      rw [List.map_cons, List.map_cons, List.intersperse_cons_cons, written_cons, written_cons,
        String.toList_append, String.toList_append]
      intro hmem
      rcases List.mem_append.mp hmem with hmem | hmem
      · exact hoperand slot hmem
      · rcases List.mem_append.mp hmem with hmem | hmem
        · have hcomma : ')' ∉ ", ".toList := by decide
          exact hcomma hmem
        · exact ih hmem

/-- The values of a list are counted up to its closing parenthesis. -/
theorem itemCount_items {ns : Namespace} (hns : ns.WellFormed) (count : Nat) (rest : List Char) :
    itemCount ((written (.plain " IN (" :: itemPieces ns count)).toList ++ ')' :: rest) =
      count := by
  have hclose : ')' ∉ (written (.plain " IN (" :: itemPieces ns count)).toList := by
    rw [written_cons, String.toList_append, itemPieces_eq]
    intro hmem
    rcases List.mem_append.mp hmem with hmem | hmem
    · have hopen : ')' ∉ " IN (".toList := by decide
      exact hopen hmem
    · exact close_notMem_operands hns _ hmem
  have hrun : ∀ c ∈ (written (.plain " IN (" :: itemPieces ns count)).toList,
      (decide (c ≠ ')')) = true := by
    intro c hc
    exact decide_eq_true fun heq => hclose (heq ▸ hc)
  have hspaced : Spaced (.plain " IN (" :: itemPieces ns count) :=
    .plain (by decide) (spaced_itemPieces hns count)
  have hfound : placeholders (.plain " IN (" :: itemPieces ns count) =
      (Shape.oneOf count).slots.map ns.operand := placeholders_itemPieces ns count
  unfold itemCount
  rw [takeWhile_run hrun (stops_cons.mpr (by decide)),
    hspaced.placeholdersIn_written, hfound]
  simp [Shape.slots]

namespace Shape

/-- The pieces of a predicate after its name placeholder. -/
def trail (ns : Namespace) (s : Shape) : List Piece :=
  (s.pieces ns).drop (if s.lead = "" then 1 else 2)

theorem toList_written_pieces (ns : Namespace) (s : Shape) :
    (written (s.pieces ns)).toList =
      s.lead.toList ++ '#' :: (ns.token.toList ++ (written (s.trail ns)).toList) := by
  cases s <;> simp [pieces, trail, lead, Piece.text, Namespace.name]

/-- Something always comes after the name, and it ends the placeholder. -/
theorem stops_trail (ns : Namespace) (s : Shape) (rest : List Char) :
    Stops isTokenChar ((written (s.trail ns)).toList ++ rest) := by
  cases s <;> simp [trail, pieces, lead, Piece.text] <;> decide

/-- Every shape is told from its own text, whatever comes after it. -/
theorem told?_lead {ns : Namespace} (hns : ns.WellFormed) (s : Shape) (rest : List Char) :
    told? s.lead ((written (s.trail ns)).toList ++ rest) = some s := by
  cases s with
  | compare op =>
    have hword : firstWord (((written (trail ns (.compare op))).toList ++ rest).drop 1) =
        op.token := by
      have htext : ((written (trail ns (.compare op))).toList ++ rest).drop 1 =
          op.token.toList ++ ' ' :: ((ns.operand .sole).toList ++ rest) := by
        simp [trail, pieces, lead, Piece.text]
      rw [htext]
      exact firstWord_append (by cases op <;> decide)
    unfold told? lead
    simp only [hword]
    cases op <;> rfl
  | size op =>
    have hword : firstWord (((written (trail ns (.size op))).toList ++ rest).drop 2) =
        op.token := by
      have htext : ((written (trail ns (.size op))).toList ++ rest).drop 2 =
          op.token.toList ++ ' ' :: ((ns.operand .sole).toList ++ ')' :: rest) := by
        simp [trail, pieces, lead, Piece.text]
      rw [htext]
      exact firstWord_append (by cases op <;> decide)
    unfold told? lead
    simp only [hword]
    cases op <;> rfl
  | oneOf count =>
    have hword : firstWord (((written (trail ns (.oneOf count))).toList ++ rest).drop 1) =
        "IN" := by
      have htext : ((written (trail ns (.oneOf count))).toList ++ rest).drop 1 =
          "IN".toList ++ ' ' :: '(' :: ((written (itemPieces ns count)).toList ++ ')' :: rest) := by
        simp [trail, pieces, lead, Piece.text]
      rw [htext]
      exact firstWord_append (by decide)
    have hcount : itemCount ((written (trail ns (.oneOf count))).toList ++ rest) = count := by
      have htext : (written (trail ns (.oneOf count))).toList ++ rest =
          (written (.plain " IN (" :: itemPieces ns count)).toList ++ ')' :: rest := by
        simp [trail, pieces, lead, Piece.text]
      rw [htext]
      exact itemCount_items hns count rest
    unfold told? lead
    simp only [hword, hcount]
  | between =>
    have hword : firstWord (((written (trail ns .between)).toList ++ rest).drop 1) =
        "BETWEEN" := by
      have htext : ((written (trail ns .between)).toList ++ rest).drop 1 =
          "BETWEEN".toList ++ ' ' :: ((ns.operand .low).toList ++
            " AND ".toList ++ (ns.operand .high).toList ++ rest) := by
        simp [trail, pieces, lead, Piece.text]
      rw [htext]
      exact firstWord_append (by decide)
    unfold told? lead
    simp only [hword]
  | _ => simp [told?, lead]

end Shape

/-! ## Section 3: Texts are read -/

/-- A predicate is read, whatever comes after it. -/
theorem readPredicate?_pieces {ns : Namespace} (hns : ns.WellFormed) (s : Shape)
    (rest : List Char) :
    readPredicate? ((written (s.pieces ns)).toList ++ rest) = some ((ns, s), rest) := by
  have htext : (written (s.pieces ns)).toList ++ rest =
      s.lead.toList ++ '#' :: (ns.token.toList ++ ((written (s.trail ns)).toList ++ rest)) := by
    rw [s.toList_written_pieces]
    simp
  have hlead : ∀ c ∈ s.lead.toList, (decide (c ≠ '#')) = true := by
    cases s <;> simp [Shape.lead]
  have hsharp {behind : List Char} : Stops (fun c => decide (c ≠ '#')) ('#' :: behind) :=
    stops_cons.mpr (by decide)
  have hstops := s.stops_trail ns rest
  unfold readPredicate?
  rw [htext, takeWhile_run hlead hsharp, dropWhile_run hlead hsharp, List.drop_one, List.tail_cons]
  dsimp only
  rw [takeWhile_run hns.tokenChars hstops, dropWhile_run hns.tokenChars hstops,
    String.ofList_toList, String.ofList_toList, Shape.told?_lead hns, ← htext]
  show (do
    let rest ← skip? (written (s.pieces ns)) ((written (s.pieces ns)).toList ++ rest)
    return ((ns, s), rest)) = some ((ns, s), rest)
  rw [skip?_append]
  rfl

theorem readConnective?_append (op : Connective) (rest : List Char) :
    readConnective? ((") " ++ op.token ++ " (").toList ++ rest) = some (op, rest) := by
  cases op with
  | and => rfl
  | or => rfl

section Steps

variable {fuel : Nat} {cs cs' rest : List Char}

/-- What begins neither like a negation nor like a connective is read as a
    predicate. -/
theorem readLayout?_leaf {leaf : Namespace × Shape} (hnot : cs.head? ≠ some 'N')
    (hopen : cs.head? ≠ some '(') (h : readPredicate? cs = some (leaf, rest)) :
    readLayout? (fuel + 1) cs = some (.leaf leaf, rest) := by
  rw [readLayout?]
  split
  · exact absurd ‹_› hnot
  · exact absurd ‹_› hopen
  · rw [h]
    rfl

theorem readLayout?_join {left right : Layout} {op : Connective}
    (hleft : readLayout? fuel cs = some (left, (") " ++ op.token ++ " (").toList ++ cs'))
    (hright : readLayout? fuel cs' = some (right, ")".toList ++ rest)) :
    readLayout? (fuel + 1) ("(".toList ++ cs) = some (.join left op right, rest) := by
  have hread : readLayout? (fuel + 1) ("(".toList ++ cs) = do
      let cs ← skip? "(" ("(".toList ++ cs)
      let (left, cs) ← readLayout? fuel cs
      let (op, cs) ← readConnective? cs
      let (right, cs) ← readLayout? fuel cs
      let cs ← skip? ")" cs
      return (Expression.join left op right, cs) := rfl
  rw [hread]
  simp only [skip?_append, hleft, readConnective?_append, hright, Option.bind_eq_bind,
    Option.bind_some]
  rfl

theorem readLayout?_negation {inner : Layout}
    (hinner : readLayout? fuel cs = some (inner, ")".toList ++ rest)) :
    readLayout? (fuel + 1) ("NOT (".toList ++ cs) = some (.negation inner, rest) := by
  have hread : readLayout? (fuel + 1) ("NOT (".toList ++ cs) = do
      let cs ← skip? "NOT (" ("NOT (".toList ++ cs)
      let (inner, cs) ← readLayout? fuel cs
      let cs ← skip? ")" cs
      return (Expression.negation inner, cs) := rfl
  rw [hread]
  simp only [skip?_append, hinner, Option.bind_eq_bind, Option.bind_some]
  rfl

end Steps

/-- A layout is read, whatever comes after it, if the fuel lasts. -/
theorem readLayout?_pieces {layout : Layout} {fuel : Nat}
    (hns : ∀ leaf ∈ layout.leaves, leaf.1.WellFormed) (hdepth : layout.depth ≤ fuel)
    (rest : List Char) :
    readLayout? fuel ((written layout.pieces).toList ++ rest) = some (layout, rest) := by
  -- Every level of the layout costs one unit of fuel; what comes after a
  -- subtree is the text of the levels above it.
  induction layout generalizing fuel rest with
  | leaf leaf =>
    obtain ⟨ns, s⟩ := leaf
    obtain _ | fuel := fuel
    · exact absurd hdepth (by simp [Expression.depth])
    · have hread := readPredicate?_pieces (hns _ List.mem_cons_self) s rest
      refine readLayout?_leaf ?_ ?_ hread
      · rw [Layout.pieces, s.toList_written_pieces]
        cases s <;> simp [Shape.lead]
      · rw [Layout.pieces, s.toList_written_pieces]
        cases s <;> simp [Shape.lead]
  | join left op right ihl ihr =>
    rw [Expression.depth] at hdepth
    obtain _ | fuel := fuel
    · omega
    · have htext : (written (Layout.pieces (.join left op right))).toList ++ rest =
          "(".toList ++ ((written (Layout.pieces left)).toList ++
            ((") " ++ op.token ++ " (").toList ++ ((written (Layout.pieces right)).toList ++
              (")".toList ++ rest)))) := by
        simp [Layout.pieces, Piece.text]
      rw [htext]
      refine readLayout?_join (ihl ?_ (by omega) _) (ihr ?_ (by omega) _)
      · exact fun leaf hleaf => hns leaf (List.mem_append_left _ hleaf)
      · exact fun leaf hleaf => hns leaf (List.mem_append_right _ hleaf)
  | negation inner ih =>
    rw [Expression.depth] at hdepth
    obtain _ | fuel := fuel
    · omega
    · have htext : (written (Layout.pieces (.negation inner))).toList ++ rest =
          "NOT (".toList ++ ((written (Layout.pieces inner)).toList ++ (")".toList ++ rest)) := by
        simp [Layout.pieces, Piece.text]
      rw [htext]
      exact readLayout?_negation (ih hns (by omega) _)

/-! ## Section 4: Placeholders are looked up -/

/-- A predicate with its operands encoded. -/
structure EncodedPredicate where
  shape : Shape
  field : String
  operands : List AttributeValue
  deriving DecidableEq, Repr

/-- Encodes the operands of a predicate. -/
def Predicate.encoded (encode : Encoder) (p : Predicate) : Except EncodeError EncodedPredicate := do
  return ⟨p.shape, p.field, ← p.operands.mapM encode⟩

/-- Why a compiled expression cannot be read back. -/
inductive ReadbackError where
  /-- The text is not that of a condition. -/
  | illegible
  /-- A placeholder stands for nothing. -/
  | unresolved (placeholder : String)
  deriving DecidableEq, Repr

/-- What a placeholder stands for. -/
def Table.resolve {α : Type} (t : Table α) (placeholder : String) : Except ReadbackError α :=
  match t.find? placeholder with
  | some value => .ok value
  | none => .error (.unresolved placeholder)

namespace CompiledExpression

/-- The predicate at a leaf, its placeholders resolved. -/
def predicateAt (x : CompiledExpression) (leaf : Namespace × Shape) :
    Except ReadbackError EncodedPredicate := do
  let field ← x.names.resolve leaf.1.name
  let operands ← leaf.2.slots.mapM fun slot => x.values.resolve (leaf.1.operand slot)
  return ⟨leaf.2, field, operands⟩

/-- Reads the condition back, its operands encoded. The fuel is the height
    of the highest condition that is rendered. -/
def readback (x : CompiledExpression) : Except ReadbackError (Expression EncodedPredicate) :=
  match readLayout? (nestingLimit + 1) x.expression.toList with
  | some (layout, []) => layout.mapM x.predicateAt
  | _ => .error .illegible

end CompiledExpression

/-- Two lists whose places go through with the same results have the same
    results as a whole. -/
private theorem mapM_zip {α β γ ε ε' : Type} {f : α → Except ε γ} {g : β → Except ε' γ}
    {xs : List α} {ys : List β} (hlen : xs.length = ys.length)
    (h : ∀ a b, (a, b) ∈ xs.zip ys → ∃ c, f a = .ok c ∧ g b = .ok c) :
    ∃ zs, xs.mapM f = .ok zs ∧ ys.mapM g = .ok zs := by
  induction xs generalizing ys with
  | nil =>
    obtain rfl : ys = [] := List.length_eq_zero_iff.mp hlen.symm
    exact ⟨[], rfl, rfl⟩
  | cons a xs ih =>
    cases ys with
    | nil => simp at hlen
    | cons b ys =>
      obtain ⟨c, ha, hb⟩ := h a b List.mem_cons_self
      obtain ⟨zs, hxs, hys⟩ :=
        ih (Nat.succ.inj hlen) fun a b hab => h a b (List.mem_cons_of_mem _ hab)
      refine ⟨c :: zs, ?_, ?_⟩
      · rw [List.mapM_cons, ha, hxs]
        rfl
      · rw [List.mapM_cons, hb, hys]
        rfl

/-- What goes through leaf by leaf keeps what the step keeps. -/
theorem Expression.map_eq_of_mapM_eq_ok {Leaf Other Seen Fault : Type}
    {f : Leaf → Except Fault Other} {g : Leaf → Seen} {g' : Other → Seen}
    (hkept : ∀ p q, f p = .ok q → g p = g' q) {e : Expression Leaf} {t : Expression Other}
    (h : e.mapM f = .ok t) : e.map g = t.map g' := by
  induction e generalizing t with
  | leaf p =>
    obtain ⟨q, hq, ht⟩ := bind_eq_ok_iff.mp h
    rw [pure_eq_ok_iff.mp ht, map, map, hkept p q hq]
  | join left op right ihl ihr =>
    obtain ⟨u, hu, h⟩ := bind_eq_ok_iff.mp h
    obtain ⟨v, hv, ht⟩ := bind_eq_ok_iff.mp h
    rw [pure_eq_ok_iff.mp ht, map, map, ihl hu, ihr hv]
  | negation inner ih =>
    obtain ⟨u, hu, ht⟩ := bind_eq_ok_iff.mp h
    rw [pure_eq_ok_iff.mp ht, map, map, ih hu]

theorem Predicate.encoded_eq_ok_iff {encode : Encoder} {p : Predicate} {q : EncodedPredicate} :
    p.encoded encode = .ok q ↔
      p.shape = q.shape ∧ p.field = q.field ∧ p.operands.map encode = q.operands.map .ok := by
  unfold encoded
  rw [bind_eq_ok_iff]
  constructor
  · intro hrun
    obtain ⟨operands, hops, hq⟩ := hrun
    rw [pure_eq_ok_iff.mp hq]
    exact ⟨rfl, rfl, mapM_eq_ok_iff.mp hops⟩
  · intro hsame
    obtain ⟨hshape, hfield, hops⟩ := hsame
    refine ⟨q.operands, mapM_eq_ok_iff.mpr hops, ?_⟩
    rw [hshape, hfield]
    rfl

namespace Condition

variable {encode : Encoder} {x : CompiledExpression}

/-- If tables hold the entries of a condition, its leaves are resolved to
    its predicates with their operands encoded. -/
theorem mapM_predicateAt {ns : Namespace} {c : Condition}
    (hnames : ∀ key field, (key, field) ∈ c.nameEntries ns → x.names.find? key = some field)
    (hvalues : ∀ key operand, (key, operand) ∈ c.operandEntries ns →
      ∃ value, x.values.find? key = some value ∧ encode operand = .ok value) :
    ∃ t, c.mapM (Predicate.encoded encode) = .ok t ∧ (c.layout ns).mapM x.predicateAt = .ok t := by
  induction c generalizing ns with
  | leaf p =>
    have hname : x.names.resolve (ns.child 0).name = .ok p.field := by
      unfold Table.resolve
      rw [hnames _ p.field (by simp [nameEntries, Expression.sites])]
    obtain ⟨operands, hslots, hops⟩ : ∃ operands,
        p.shape.slots.mapM (fun slot => x.values.resolve ((ns.child 0).operand slot)) =
            .ok operands ∧
          p.operands.mapM encode = .ok operands := by
      apply mapM_zip p.length_slots_shape
      intro slot operand hslot
      have hmem : ((ns.child 0).operand slot, operand) ∈ operandEntries ns (.leaf p) := by
        unfold operandEntries
        rw [Expression.sites, List.flatMap_cons, List.flatMap_nil, List.append_nil]
        exact List.mem_map.mpr ⟨(slot, operand), hslot, rfl⟩
      obtain ⟨value, hfind, henc⟩ := hvalues _ _ hmem
      refine ⟨value, ?_, henc⟩
      unfold Table.resolve
      rw [hfind]
    refine ⟨.leaf ⟨p.shape, p.field, operands⟩, ?_, ?_⟩
    · rw [Expression.mapM, Predicate.encoded, hops]
      rfl
    · show (Expression.leaf (ns.child 0, p.shape)).mapM x.predicateAt = _
      rw [Expression.mapM, CompiledExpression.predicateAt, hname, hslots]
      rfl
  | join left op right ihl ihr =>
    rw [nameEntries_join] at hnames
    rw [operandEntries_join] at hvalues
    obtain ⟨t, hleft, hleft'⟩ := ihl
      (fun key field hentry => hnames key field (List.mem_append_left _ hentry))
      (fun key operand hentry => hvalues key operand (List.mem_append_left _ hentry))
    obtain ⟨u, hright, hright'⟩ := ihr
      (fun key field hentry => hnames key field (List.mem_append_right _ hentry))
      (fun key operand hentry => hvalues key operand (List.mem_append_right _ hentry))
    refine ⟨.join t op u, ?_, ?_⟩
    · rw [Expression.mapM, hleft, hright]
      rfl
    · rw [layout_join, Expression.mapM, hleft', hright']
      rfl
  | negation inner ih =>
    rw [nameEntries_negation] at hnames
    rw [operandEntries_negation] at hvalues
    obtain ⟨t, hinner, hinner'⟩ := ih hnames hvalues
    refine ⟨.negation t, ?_, ?_⟩
    · rw [Expression.mapM, hinner]
      rfl
    · rw [layout_negation, Expression.mapM, hinner']
      rfl

/-! ## Section 5: Compiled expressions are unambiguous -/

/-- What is rendered at a well-formed namespace is read back as the
    condition with its operands encoded. -/
theorem readback_eq {ns : Namespace} {c : Condition} (hns : ns.WellFormed)
    (h : c.render encode ns = .ok x) :
    ∃ t, c.mapM (Predicate.encoded encode) = .ok t ∧ x.readback = .ok t := by
  obtain ⟨hrendered, hdepth⟩ := render_eq_ok_iff.mp h
  have hnames : ∀ key field, (key, field) ∈ c.nameEntries ns → x.names.find? key = some field := by
    intro key field hentry
    exact Table.mem_entries_iff.mp (hrendered.names_perm.mem_iff.mpr hentry)
  have hvalues : ∀ key operand, (key, operand) ∈ c.operandEntries ns →
      ∃ value, x.values.find? key = some value ∧ encode operand = .ok value := by
    intro key operand hentry
    have hmem : (key, encode operand) ∈ Rendered.returned x.values :=
      hrendered.values_perm.mem_iff.mpr (List.mem_map.mpr ⟨(key, operand), hentry, rfl⟩)
    obtain ⟨⟨_, value⟩, hvalue, heq⟩ := List.mem_map.mp hmem
    obtain ⟨rfl, henc⟩ := Prod.mk.inj heq
    exact ⟨value, Table.mem_entries_iff.mp hvalue, henc.symm⟩
  obtain ⟨t, hencoded, hresolved⟩ := mapM_predicateAt hnames hvalues
  refine ⟨t, hencoded, ?_⟩
  have hread : readLayout? (nestingLimit + 1) x.expression.toList = some (c.layout ns, []) := by
    rw [← depth_layout ns c] at hdepth
    have hpieces := readLayout?_pieces (wellFormed_layout hns c) hdepth []
    rw [List.append_nil] at hpieces
    rw [hrendered.expression_eq]
    exact hpieces
  unfold CompiledExpression.readback
  rw [hread]
  exact hresolved

/-- **No ambiguity.** When two conditions have the same compiled expression
    under a root token, one reader gets from it what both become when their
    operands are encoded. So they agree in their connectives and negations,
    in the kinds and comparators of their predicates, in every attribute and,
    operand by operand, in what is encoded. -/
theorem compiled_unambiguous {token : String} {c d : Condition}
    (htoken : isRootToken token = true) (hc : c.render encode (.root token) = .ok x)
    (hd : d.render encode (.root token) = .ok x) :
    (∃ t, x.readback = .ok t ∧ c.mapM (Predicate.encoded encode) = .ok t ∧
      d.mapM (Predicate.encoded encode) = .ok t) ∧
    c.skeleton = d.skeleton ∧ c.map Predicate.field = d.map Predicate.field ∧
    c.map (fun p => p.operands.map encode) = d.map fun p => p.operands.map encode := by
  have hns := Namespace.wellFormed_root htoken
  obtain ⟨t, hct, hread⟩ := readback_eq hns hc
  obtain ⟨u, hdu, hread'⟩ := readback_eq hns hd
  obtain rfl : u = t := Except.ok.inj (hread'.symm.trans hread)
  have hshape (p : Predicate) (q : EncodedPredicate) (h : p.encoded encode = .ok q) :
      p.shape = q.shape := (Predicate.encoded_eq_ok_iff.mp h).1
  have hfield (p : Predicate) (q : EncodedPredicate) (h : p.encoded encode = .ok q) :
      p.field = q.field := (Predicate.encoded_eq_ok_iff.mp h).2.1
  have hops (p : Predicate) (q : EncodedPredicate) (h : p.encoded encode = .ok q) :
      p.operands.map encode = q.operands.map .ok := (Predicate.encoded_eq_ok_iff.mp h).2.2
  refine ⟨⟨u, hread, hct, hdu⟩, ?_, ?_, ?_⟩
  · unfold skeleton
    rw [Expression.map_eq_of_mapM_eq_ok hshape hct, Expression.map_eq_of_mapM_eq_ok hshape hdu]
  · rw [Expression.map_eq_of_mapM_eq_ok hfield hct, Expression.map_eq_of_mapM_eq_ok hfield hdu]
  · rw [Expression.map_eq_of_mapM_eq_ok hops hct, Expression.map_eq_of_mapM_eq_ok hops hdu]

/-- Two conditions that differ in the signs of their zeros have the same
    compiled expression, and it is read back in spite of the lone closing
    parenthesis and of the `AND` inside the range. -/
theorem compiled_unambiguous_zeros :
    ∃ x t,
      render .standard (.root "C") (.join
        (.negation (.leaf (.size "tags" .gt (.signedZero true)))) .and
        (.leaf (.between "age" (.number (.signedZero false)) (.text ") AND (")))) = .ok x ∧
      render .standard (.root "C") (.join
        (.negation (.leaf (.size "tags" .gt (.signedZero false)))) .and
        (.leaf (.between "age" (.number (.signedZero true)) (.text ") AND (")))) = .ok x ∧
      x.expression =
        "(NOT (size(#C_0_0_0) > :C_0_0_0))) AND (#C_1_0 BETWEEN :C_1_0_L AND :C_1_0_R)" ∧
      x.readback = .ok t := by
  have hc : render .standard (.root "C") (.join
      (.negation (.leaf (.size "tags" .gt (.signedZero true)))) .and
      (.leaf (.between "age" (.number (.signedZero false)) (.text ") AND (")))) = .ok _ := rfl
  have hd : render .standard (.root "C") (.join
      (.negation (.leaf (.size "tags" .gt (.signedZero false)))) .and
      (.leaf (.between "age" (.number (.signedZero true)) (.text ") AND (")))) = .ok _ := rfl
  obtain ⟨⟨t, hread, _⟩, _⟩ := compiled_unambiguous (by decide) hc hd
  exact ⟨_, t, hc, hd, rfl, hread⟩

end Condition
end CondExpr
