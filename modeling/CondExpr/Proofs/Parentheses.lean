import CondExpr.Proofs.Coverage

/-! # Parentheses

  Every operand of a connective or a negation is put in parentheses. What a
  parenthesis is closed by is found without knowledge of how the text was
  written: a count goes over the text behind it, and the first parenthesis
  that closes more than was opened there is the one. For an operand that is
  the parenthesis behind it just if the operand's own text is balanced.

  A size test closes one parenthesis more than it opens. It is the only
  predicate that does so, and nothing makes up for it further up, so the size
  tests of a condition are counted exactly by the parentheses in excess, and
  every parenthesis that is opened around a size test is closed too early.
-/

namespace CondExpr

/-! ## Section 1: Which parenthesis closes which -/

/-- How many parentheses are open behind a character, when `opened` are open
    before it; none at all when it closes one that is not open. -/
def openAfter? (opened : Nat) (c : Char) : Option Nat :=
  if c = '(' then some (opened + 1)
  else if c = ')' then if opened = 0 then none else some (opened - 1)
  else some opened

/-- Where a text first closes more than it has opened by then, when
    `opened` parentheses before it are still open. -/
def overclosed? (opened : Nat) : List Char → Option Nat
  | [] => none
  | c :: rest =>
    match openAfter? opened c with
    | none => some 0
    | some opened => (overclosed? opened rest).map (· + 1)

/-- Where the parenthesis stands that closes the one at a position: behind
    it, where the text first closes more than it opens there. -/
def closing? (text : List Char) (start : Nat) : Option Nat :=
  if text[start]? = some '(' then
    (overclosed? 0 (text.drop (start + 1))).map (start + 1 + ·)
  else none

/-- A text closes just the parentheses that it opens: as many in all, and
    from its beginning to no place in it more than it has opened by then. -/
structure Balanced (text : List Char) : Prop where
  total : text.count ')' = text.count '('
  parts : ∀ part, part <+: text → part.count ')' ≤ part.count '('

/-- What was opened before, and is opened or closed now, is what is open. -/
theorem openAfter?_eq_some_iff {opened now : Nat} {c : Char} :
    openAfter? opened c = some now ↔ now + [c].count ')' = opened + [c].count '(' := by
  unfold openAfter?
  by_cases hopen : c = '('
  · subst hopen
    simp
    omega
  · by_cases hclose : c = ')'
    · subst hclose
      by_cases hzero : opened = 0
      · simp [hzero]
      · simp [hzero]
        omega
    · simp [hopen, hclose]
      omega

theorem openAfter?_eq_none_iff {opened : Nat} {c : Char} :
    openAfter? opened c = none ↔ opened + [c].count '(' < [c].count ')' := by
  rw [Option.eq_none_iff_forall_ne_some]
  simp only [ne_eq, openAfter?_eq_some_iff]
  constructor
  · intro h
    have hdiff := h (opened + [c].count '(' - [c].count ')')
    omega
  · intro h now
    omega

private theorem count_cons_eq (c d : Char) (text : List Char) :
    (c :: text).count d = [c].count d + text.count d := by
  rw [← List.count_append]
  rfl

/-- The count never fails just if no part closes more than is open for it. -/
theorem overclosed?_eq_none_iff {opened : Nat} {text : List Char} :
    overclosed? opened text = none ↔
      ∀ part, part <+: text → part.count ')' ≤ opened + part.count '(' := by
  induction text generalizing opened with
  | nil => simp [overclosed?]
  | cons c rest ih =>
    rw [overclosed?]
    cases hafter : openAfter? opened c with
    | none =>
      have hlt := openAfter?_eq_none_iff.mp hafter
      constructor
      · intro h
        cases h
      · intro h
        -- The first character alone closes too much.
        exact absurd (h [c] (List.prefix_append [c] rest)) (by omega)
    | some now =>
      have heq := openAfter?_eq_some_iff.mp hafter
      show (overclosed? now rest).map (· + 1) = none ↔ _
      rw [Option.map_eq_none_iff, ih]
      constructor
      · intro h part hpart
        rcases List.prefix_cons_iff.mp hpart with rfl | ⟨tail, rfl, htail⟩
        · exact Nat.zero_le _
        · have hle := h tail htail
          rw [count_cons_eq c ')' tail, count_cons_eq c '(' tail]
          omega
      · intro h part hpart
        have hle := h (c :: part) (List.cons_prefix_cons.mpr ⟨rfl, hpart⟩)
        rw [count_cons_eq c ')' part, count_cons_eq c '(' part] at hle
        omega

/-- Where nothing is closed too often, the count goes on with what is open. -/
theorem overclosed?_append_of_eq_none {opened : Nat} {front : List Char} (back : List Char)
    (h : overclosed? opened front = none) :
    overclosed? opened (front ++ back) =
      (overclosed? (opened + front.count '(' - front.count ')') back).map (· + front.length) := by
  induction front generalizing opened with
  | nil => simp
  | cons c rest ih =>
    rw [overclosed?] at h
    rw [List.cons_append, overclosed?]
    cases hafter : openAfter? opened c with
    | none => rw [hafter] at h; cases h
    | some now =>
      have heq := openAfter?_eq_some_iff.mp hafter
      rw [hafter] at h
      have hnow : now + rest.count '(' - rest.count ')' =
          opened + (c :: rest).count '(' - (c :: rest).count ')' := by
        rw [count_cons_eq c ')' rest, count_cons_eq c '(' rest]
        omega
      show (overclosed? now (rest ++ back)).map (· + 1) = _
      rw [ih (Option.map_eq_none_iff.mp h), hnow, Option.map_map]
      rfl

/-- What follows the first parenthesis in excess plays no part. -/
theorem overclosed?_append_of_eq_some {opened place : Nat} {front : List Char} (back : List Char)
    (h : overclosed? opened front = some place) :
    overclosed? opened (front ++ back) = some place ∧ place < front.length := by
  induction front generalizing opened place with
  | nil => cases h
  | cons c rest ih =>
    rw [overclosed?] at h
    rw [List.cons_append, overclosed?]
    cases hafter : openAfter? opened c with
    | none =>
      rw [hafter] at h
      cases h
      exact ⟨rfl, Nat.zero_lt_succ _⟩
    | some now =>
      rw [hafter] at h
      obtain ⟨before, hbefore, rfl⟩ := Option.map_eq_some_iff.mp h
      obtain ⟨hall, hlt⟩ := ih hbefore
      show (overclosed? now (rest ++ back)).map (· + 1) = _ ∧ _
      rw [hall]
      exact ⟨rfl, Nat.succ_lt_succ hlt⟩

namespace Balanced

/-- However much is open before it, a balanced text closes none of that. -/
theorem overclosed? {text : List Char} (h : Balanced text) (opened : Nat) :
    overclosed? opened text = none := by
  rw [overclosed?_eq_none_iff]
  intro part hpart
  exact Nat.le_trans (h.parts part hpart) (Nat.le_add_left _ _)

theorem of_overclosed? {text : List Char} (htotal : text.count ')' = text.count '(')
    (h : CondExpr.overclosed? 0 text = none) : Balanced text := by
  refine ⟨htotal, ?_⟩
  intro part hpart
  have hle := overclosed?_eq_none_iff.mp h part hpart
  rwa [Nat.zero_add] at hle

theorem nil : Balanced [] := .of_overclosed? rfl rfl

theorem append {front back : List Char} (hfront : Balanced front) (hback : Balanced back) :
    Balanced (front ++ back) := by
  have hfrontTotal := hfront.total
  have hbackTotal := hback.total
  have hsame : 0 + front.count '(' - front.count ')' = 0 := by omega
  apply of_overclosed?
  · rw [List.count_append, List.count_append, hfrontTotal, hbackTotal]
  · rw [overclosed?_append_of_eq_none back (hfront.overclosed? 0), hsame, hback.overclosed? 0]
    rfl

theorem enclosed {text : List Char} (h : Balanced text) : Balanced ('(' :: (text ++ [')'])) := by
  have htotal := h.total
  have hsame : 1 + text.count '(' - text.count ')' = 1 := by omega
  apply of_overclosed?
  · simp [htotal]
  · show (CondExpr.overclosed? 1 (text ++ [')'])).map (· + 1) = none
    rw [overclosed?_append_of_eq_none _ (h.overclosed? 1), hsame]
    rfl

end Balanced

/-- Behind a text stands the first parenthesis that closes none of the text's
    own just if the text is balanced. -/
theorem overclosed?_append_close_iff {inside : List Char} (after : List Char) :
    overclosed? 0 (inside ++ ')' :: after) = some inside.length ↔ Balanced inside := by
  cases hinside : overclosed? 0 inside with
  | some place =>
    -- The text has such a parenthesis of its own.
    obtain ⟨hall, hlt⟩ := overclosed?_append_of_eq_some (')' :: after) hinside
    rw [hall]
    constructor
    · intro h
      exact absurd (Option.some.inj h) (Nat.ne_of_lt hlt)
    · intro h
      rw [h.overclosed? 0] at hinside
      cases hinside
  | none =>
    have hle := overclosed?_eq_none_iff.mp hinside inside List.prefix_rfl
    rw [overclosed?_append_of_eq_none _ hinside]
    generalize hopen : 0 + inside.count '(' - inside.count ')' = opened
    cases opened with
    | zero =>
      have htotal : inside.count ')' = inside.count '(' := by omega
      have hbalanced : Balanced inside := .of_overclosed? htotal hinside
      simpa [overclosed?, openAfter?] using hbalanced
    | succ opened =>
      -- Something is still open, so the parenthesis behind the text closes that.
      constructor
      · intro h
        have hlater : overclosed? (opened + 1) (')' :: after) =
            (overclosed? opened after).map (· + 1) := rfl
        rw [hlater, Option.map_map] at h
        obtain ⟨place, _, hplace⟩ := Option.map_eq_some_iff.mp h
        exact absurd hplace (by simp)
      · intro h
        have htotal := h.total
        omega

/-- A parenthesis is closed by the one behind the text that follows it just if
    that text is balanced. -/
theorem closing?_eq_some_iff {before inside after : List Char} :
    closing? (before ++ '(' :: (inside ++ ')' :: after)) before.length =
        some (before.length + 1 + inside.length) ↔ Balanced inside := by
  have hopens : (before ++ '(' :: (inside ++ ')' :: after))[before.length]? = some '(' := by simp
  have hdrop : (before ++ '(' :: (inside ++ ')' :: after)).drop (before.length + 1) =
      inside ++ ')' :: after := by
    rw [List.drop_append]
    simp
  rw [closing?, if_pos hopens, hdrop, ← overclosed?_append_close_iff after,
    Option.map_eq_some_iff]
  constructor
  · intro h
    obtain ⟨place, hplace, heq⟩ := h
    obtain rfl : place = inside.length := Nat.add_left_cancel heq
    exact hplace
  · intro h
    exact ⟨inside.length, h, rfl⟩

/-! ## Section 2: The parentheses of a text -/

/-- The parentheses of a text. -/
def parens (text : List Char) : List Char := text.filter fun c => c = '(' || c = ')'

theorem parens_append (front back : List Char) :
    parens (front ++ back) = parens front ++ parens back := by
  unfold parens
  exact List.filter_append front back

theorem count_parens (text : List Char) :
    (parens text).count '(' = text.count '(' ∧ (parens text).count ')' = text.count ')' :=
  ⟨List.count_filter (by decide), List.count_filter (by decide)⟩

/-- What else there is in a text plays no part in whether it is balanced. -/
theorem Balanced.of_parens {text : List Char} (h : Balanced (parens text)) : Balanced text := by
  constructor
  · obtain ⟨hopen, hclose⟩ := count_parens text
    rw [← hopen, ← hclose]
    exact h.total
  · intro part hpart
    obtain ⟨hopen, hclose⟩ := count_parens part
    rw [← hopen, ← hclose]
    exact h.parts (parens part) (hpart.filter _)

private theorem parens_cons_run {sigil : Char} {run : List Char} (hsigil : isSigil sigil = true)
    (hrun : ∀ c ∈ run, isTokenChar c = true) : parens (sigil :: run) = [] := by
  have hplain {c : Char} (h : c = '(' ∨ c = ')') : isSigil c = false ∧ isTokenChar c = false := by
    rcases h with rfl | rfl <;> decide
  unfold parens
  rw [List.filter_eq_nil_iff]
  -- A parenthesis is neither a sigil nor a token character.
  intro c hc hparen
  obtain ⟨hnoSigil, hnoToken⟩ := hplain (by simpa using hparen)
  rcases List.mem_cons.mp hc with rfl | hc
  · rw [hsigil] at hnoSigil
    cases hnoSigil
  · rw [hrun c hc] at hnoToken
    cases hnoToken

/-- The parentheses of a piece; placeholders have none. -/
def Piece.parens : Piece → List Char
  | .plain text => CondExpr.parens text.toList
  | .name _ | .operand _ _ => []

/-- A spaced row has the parentheses of its plain texts. -/
theorem Spaced.parens_written {pieces : List Piece} (h : Spaced pieces) :
    parens (written pieces).toList = pieces.flatMap Piece.parens := by
  induction h with
  | nil => simp [parens]
  | plain _ _ ih =>
    rw [written_cons, String.toList_append, parens_append, ih]
    rfl
  | @name ns rest hns _ _ ih =>
    rw [written_cons, String.toList_append, parens_append, ih, Piece.text, ns.toList_name,
      parens_cons_run (by decide) hns.tokenChars]
    rfl
  | @operand ns slot rest hns _ _ ih =>
    rw [written_cons, String.toList_append, parens_append, ih, Piece.text, ns.toList_operand,
      parens_cons_run (by decide) (hns.operand_tokenChars slot)]
    rfl

private theorem parens_operands (ns : Namespace) : ∀ slots : List Slot,
    ((slots.map (Piece.operand ns)).intersperse (.plain ", ")).flatMap Piece.parens = []
  | [] => rfl
  | [slot] => rfl
  | slot :: next :: rest => by
    have ih := parens_operands ns (next :: rest)
    rw [List.map_cons, List.map_cons, List.intersperse_cons_cons, ← List.map_cons]
    exact ih

/-- The shape is that of a size test. -/
def Shape.isSize : Shape → Bool
  | .size _ => true
  | _ => false

/-- The parentheses of a predicate of the given shape. -/
def Shape.parens : Shape → List Char
  | .compare _ | .between => []
  | .size _ => ['(', ')', ')']
  | _ => ['(', ')']

theorem Shape.parens_pieces (ns : Namespace) (s : Shape) :
    (s.pieces ns).flatMap Piece.parens = s.parens := by
  cases s with
  | compare op => cases op <;> rfl
  | size op => cases op <;> rfl
  | oneOf count =>
    -- The list has no parentheses of its own, however long it is.
    have hitems : (itemPieces ns count).flatMap Piece.parens = [] := by
      rw [itemPieces_eq]
      exact parens_operands ns _
    rw [Shape.pieces, List.flatMap_append, List.flatMap_cons, List.flatMap_cons, hitems]
    rfl
  | _ => rfl

/-! ## Section 3: The parentheses of layouts -/

namespace Layout

theorem parens_join (left right : Layout) (op : Connective) :
    (pieces (.join left op right)).flatMap Piece.parens =
      '(' :: ((pieces left).flatMap Piece.parens ++ [')']) ++
        '(' :: ((pieces right).flatMap Piece.parens ++ [')']) := by
  have hop : (Piece.plain (") " ++ op.token ++ " (")).parens = [')', '('] := by cases op <;> rfl
  have hopen : (Piece.plain "(").parens = ['('] := rfl
  have hclose : (Piece.plain ")").parens = [')'] := rfl
  simp [pieces, hop, hopen, hclose]

theorem parens_negation (inner : Layout) :
    (pieces (.negation inner)).flatMap Piece.parens =
      '(' :: ((pieces inner).flatMap Piece.parens ++ [')']) := by
  have hopen : (Piece.plain "NOT (").parens = ['('] := rfl
  have hclose : (Piece.plain ")").parens = [')'] := rfl
  simp [pieces, hopen, hclose]

/-- Connectives and negations close what they open, size tests one more. -/
theorem count_close (layout : Layout) :
    ((pieces layout).flatMap Piece.parens).count ')' =
      ((pieces layout).flatMap Piece.parens).count '(' +
        layout.leaves.countP fun leaf => leaf.2.isSize := by
  induction layout with
  | leaf leaf =>
    rw [pieces, Shape.parens_pieces]
    cases hshape : leaf.2 <;> simp [Shape.parens, Shape.isSize, Expression.leaves, hshape]
  | join left op right ihl ihr =>
    rw [parens_join, Expression.leaves, List.countP_append]
    simp [ihl, ihr]
    omega
  | negation inner ih =>
    rw [parens_negation, Expression.leaves]
    simp [ih]
    omega

/-- Without size tests every layout is balanced. -/
theorem balanced {layout : Layout} (h : ∀ leaf ∈ layout.leaves, leaf.2.isSize = false) :
    Balanced ((pieces layout).flatMap Piece.parens) := by
  induction layout with
  | leaf leaf =>
    have hsize := h leaf List.mem_cons_self
    rw [pieces, Shape.parens_pieces]
    cases hshape : leaf.2 with
    | size op => rw [hshape] at hsize; cases hsize
    | compare op => exact .nil
    | between => exact .nil
    | _ => exact .enclosed .nil
  | join left op right ihl ihr =>
    have hleft := ihl fun leaf hleaf => h leaf (List.mem_append_left _ hleaf)
    have hright := ihr fun leaf hleaf => h leaf (List.mem_append_right _ hleaf)
    rw [parens_join]
    exact hleft.enclosed.append hright.enclosed
  | negation inner ih =>
    rw [parens_negation]
    exact (ih h).enclosed

end Layout

namespace Rendered

variable {encode : Encoder} {ns : Namespace} {c : Condition} {out : CompiledExpression}

private theorem parens_expression (hns : ns.WellFormed) (h : Rendered encode ns c out) :
    parens out.expression.toList = (Layout.pieces (c.layout ns)).flatMap Piece.parens := by
  have hspaced : Spaced (Layout.pieces (c.layout ns)) :=
    Layout.spaced_pieces (Condition.wellFormed_layout hns c)
  rw [h.expression_eq, hspaced.parens_written]

/-- Every size test, and nothing else, closes one parenthesis too many. -/
theorem count_close (hns : ns.WellFormed) (h : Rendered encode ns c out) :
    out.expression.toList.count ')' =
      out.expression.toList.count '(' + c.leaves.countP fun p => p.shape.isSize := by
  obtain ⟨hopen, hclose⟩ := count_parens out.expression.toList
  have hlayout := (c.layout ns).count_close
  rw [← parens_expression hns h, hopen, hclose, Condition.leaves_layout, List.countP_map] at hlayout
  rw [hlayout, Expression.leaves_eq_map_sites, List.countP_map]
  rfl

/-- A text is balanced unless there is a size test. -/
theorem balanced_iff (hns : ns.WellFormed) (h : Rendered encode ns c out) :
    Balanced out.expression.toList ↔ ∀ p ∈ c.leaves, p.shape.isSize = false := by
  constructor
  · intro hbalanced p hp
    have htotal := hbalanced.total
    have hcount := count_close hns h
    have hnone : (c.leaves.countP fun p => p.shape.isSize) = 0 := by omega
    exact Bool.eq_false_iff.mpr (List.countP_eq_zero.mp hnone p hp)
  · intro hsize
    apply Balanced.of_parens
    rw [parens_expression hns h]
    apply Layout.balanced
    intro leaf hleaf
    rw [Condition.leaves_layout] at hleaf
    obtain ⟨site, hsite, rfl⟩ := List.mem_map.mp hleaf
    apply hsize
    rw [Expression.leaves_eq_map_sites]
    exact List.mem_map_of_mem hsite

end Rendered

/-! ## Section 4: The parentheses of operands -/

namespace Condition

variable {encode : Encoder} {ns : Namespace} {c d : Condition} {out : CompiledExpression}

/-- The text of an operand stands in parentheses in the text of its node. -/
theorem render_operand {index : Nat} (h : c.render encode ns = .ok out)
    (hnode : c.nodeAt? [index] = some d) :
    ∃ part before after, d.render encode (ns.child index) = .ok part ∧
      out.expression.toList = before ++ '(' :: (part.expression.toList ++ ')' :: after) := by
  cases c with
  | leaf p => simp [Expression.nodeAt?] at hnode
  | join left op right =>
    obtain ⟨x, y, hx, hy, htext⟩ := render_join_parts h
    obtain _ | _ | index := index
    · obtain rfl : left = d := by simpa [Expression.nodeAt?] using hnode
      refine ⟨x, [], (" " ++ op.token ++ " (" ++ y.expression ++ ")").toList, hx, ?_⟩
      rw [htext]
      simp
    · obtain rfl : right = d := by simpa [Expression.nodeAt?] using hnode
      refine ⟨y, ("(" ++ x.expression ++ ") " ++ op.token ++ " ").toList, [], hy, ?_⟩
      rw [htext]
      simp
    · simp [Expression.nodeAt?] at hnode
  | negation inner =>
    obtain ⟨x, hx, htext⟩ := render_negation_part h
    obtain _ | index := index
    · obtain rfl : inner = d := by simpa [Expression.nodeAt?] using hnode
      refine ⟨x, "NOT ".toList, [], hx, ?_⟩
      rw [htext]
      simp
    · simp [Expression.nodeAt?] at hnode

/-- So it does in the text of every node above. -/
theorem render_operandAt {path : List Nat} {index : Nat} (h : c.render encode ns = .ok out)
    (hnode : c.nodeAt? (path ++ [index]) = some d) :
    ∃ part before after, d.render encode (ns.descend (path ++ [index])) = .ok part ∧
      out.expression.toList = before ++ '(' :: (part.expression.toList ++ ')' :: after) := by
  induction path generalizing c ns out with
  | nil => exact render_operand h hnode
  | cons first path ih =>
    obtain ⟨operand, hfirst, hbelow⟩ := Expression.nodeAt?_cons hnode
    obtain ⟨x, front, back, hx, htext⟩ := render_operand h hfirst
    obtain ⟨part, before, after, hpart, hxtext⟩ := ih hx hbelow
    -- Around the text of the first operand stands that of the whole.
    refine ⟨part, front ++ '(' :: before, after ++ ')' :: back, hpart, ?_⟩
    rw [htext, hxtext]
    simp

/-- **Parentheses.** The text of a rendered condition closes one parenthesis
    more than it opens for every size test, and it is balanced just if there
    is no size test. Every operand of a connective or a negation stands in
    parentheses, as it is rendered at its place; and wherever it stands so,
    the parenthesis opened before it is closed by the one behind it just if
    there is no size test in the operand. -/
theorem parentheses_matched {token : String} (htoken : isRootToken token = true)
    (h : c.render encode (.root token) = .ok out) :
    out.expression.toList.count ')' =
      out.expression.toList.count '(' + (c.leaves.countP fun p => p.shape.isSize) ∧
    (Balanced out.expression.toList ↔ ∀ p ∈ c.leaves, p.shape.isSize = false) ∧
    ∀ path index (d : Condition), c.nodeAt? (path ++ [index]) = some d →
      ∃ part, d.render encode ((Namespace.root token).descend (path ++ [index])) = .ok part ∧
        (∃ before after,
          out.expression.toList = before ++ '(' :: (part.expression.toList ++ ')' :: after)) ∧
        ∀ before after,
          out.expression.toList = before ++ '(' :: (part.expression.toList ++ ')' :: after) →
            (closing? out.expression.toList before.length =
              some (before.length + 1 + part.expression.toList.length) ↔
                ∀ p ∈ d.leaves, p.shape.isSize = false) := by
  have hroot : (Namespace.root token).WellFormed := Namespace.wellFormed_root htoken
  obtain ⟨hrendered, _⟩ := render_eq_ok_iff.mp h
  refine ⟨hrendered.count_close hroot, hrendered.balanced_iff hroot, ?_⟩
  intro path index d hnode
  obtain ⟨part, before, after, hpart, htext⟩ := render_operandAt h hnode
  obtain ⟨hrenderedPart, _⟩ := render_eq_ok_iff.mp hpart
  refine ⟨part, hpart, ⟨before, after, htext⟩, ?_⟩
  -- Which text stands around the operand plays no part.
  intro before' after' htext'
  rw [htext', closing?_eq_some_iff]
  exact hrenderedPart.balanced_iff (hroot.descend (path ++ [index]))

/-- The parenthesis around the size test is not closed where the test ends;
    those of the negation beside it and of its list are. -/
theorem parentheses_matched_size_and_list :
    isRootToken "C" = true ∧
      ∃ out, render .standard (.root "C") (.join (.leaf (.size "a" .gt (.signedZero false))) .and
          (.negation (.leaf (.oneOf "b" [.text "1", .text "2"])))) = .ok out ∧
        out.expression =
          "(size(#C_0_0) > :C_0_0)) AND (NOT (#C_1_0_0 IN (:C_1_0_0I0, :C_1_0_0I1)))" ∧
        out.expression.toList.count ')' = out.expression.toList.count '(' + 1 ∧
        ¬ Balanced out.expression.toList ∧
        closing? out.expression.toList 0 ≠ some 23 ∧
        closing? out.expression.toList 29 = some 72 ∧
        closing? out.expression.toList 34 = some 71 := by
  have hroot : isRootToken "C" = true := by decide
  obtain ⟨out, hout, htext⟩ : ∃ out, render .standard (.root "C")
      (.join (.leaf (.size "a" .gt (.signedZero false))) .and
        (.negation (.leaf (.oneOf "b" [.text "1", .text "2"])))) = .ok out ∧
      out.expression =
        "(size(#C_0_0) > :C_0_0)) AND (NOT (#C_1_0_0 IN (:C_1_0_0I0, :C_1_0_0I1)))" :=
    ⟨_, rfl, rfl⟩
  obtain ⟨hcount, hbalanced, hoperands⟩ := parentheses_matched hroot hout
  refine ⟨hroot, out, hout, htext, hcount, ?_, ?_, ?_, ?_⟩
  · rw [hbalanced]
    decide
  · obtain ⟨part, hpart, _, hmatched⟩ := hoperands [] 0 _ rfl
    have hsize : part.expression = "size(#C_0_0) > :C_0_0)" := by
      rw [← Except.ok.inj hpart]
      rfl
    have hclosing := hmatched [] " AND (NOT (#C_1_0_0 IN (:C_1_0_0I0, :C_1_0_0I1)))".toList
      (by simp [htext, hsize])
    intro hclosed
    exact absurd (hclosing.mp (by simpa [hsize] using hclosed)) (by decide)
  · obtain ⟨part, hpart, _, hmatched⟩ := hoperands [] 1 _ rfl
    have hnegation : part.expression = "NOT (#C_1_0_0 IN (:C_1_0_0I0, :C_1_0_0I1))" := by
      rw [← Except.ok.inj hpart]
      rfl
    have hclosing := hmatched "(size(#C_0_0) > :C_0_0)) AND ".toList []
      (by simp [htext, hnegation])
    simpa [hnegation] using hclosing.mpr (by decide)
  · obtain ⟨part, hpart, _, hmatched⟩ := hoperands [1] 0 _ rfl
    have hlist : part.expression = "#C_1_0_0 IN (:C_1_0_0I0, :C_1_0_0I1)" := by
      rw [← Except.ok.inj hpart]
      rfl
    have hclosing := hmatched "(size(#C_0_0) > :C_0_0)) AND (NOT ".toList [')']
      (by simp [htext, hlist])
    simpa [hlist] using hclosing.mpr (by decide)

end Condition
end CondExpr
