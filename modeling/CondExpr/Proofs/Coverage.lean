import CondExpr.Compiler.Basic
import CondExpr.Proofs.Entries

/-! # Every compiled expression is covered

  The text of a rendered condition is scanned for placeholders character by
  character, with no knowledge of how it was written. A row of pieces is
  *spaced* when no plain text in it holds a sigil and no placeholder in it
  runs on into the piece behind. Of a spaced row the scanner finds exactly
  the placeholders, each at its full length. The pieces of a layout below a
  root token are spaced, at any depth; so the scanner finds the keys of the
  two tables, and the coverage check has nothing to report.
-/

namespace CondExpr

/-! ## Section 1: Scanning -/

theorem isSigil_eq_false {c : Char} (h : isTokenChar c = true) : isSigil c = false := by
  have hname : c ≠ '#' := by
    intro hc
    rw [hc] at h
    exact absurd h (by decide)
  have hvalue : c ≠ ':' := by
    intro hc
    rw [hc] at h
    exact absurd h (by decide)
  simp [isSigil, hname, hvalue]

/-- Nothing is found in a text without sigils. -/
theorem placeholdersIn_append {front rest : List Char}
    (h : front.all (fun c => !isSigil c) = true) :
    placeholdersIn (front ++ rest) = placeholdersIn rest := by
  induction front with
  | nil => rfl
  | cons c front ih =>
    rw [List.all_cons, Bool.and_eq_true, Bool.not_eq_true'] at h
    obtain ⟨hc, hfront⟩ := h
    rw [List.cons_append, placeholdersIn, hc]
    exact ih hfront

/-- A sigil and a run that stops there are found as one placeholder. -/
theorem placeholdersIn_cons_append {sigil : Char} {run rest : List Char}
    (hsigil : isSigil sigil = true) (hne : run ≠ []) (hrun : ∀ c ∈ run, isTokenChar c = true)
    (hrest : Stops isTokenChar rest) :
    placeholdersIn (sigil :: (run ++ rest)) = (sigil :: run) :: placeholdersIn rest := by
  have hskip : placeholdersIn (run ++ rest) = placeholdersIn rest := by
    apply placeholdersIn_append
    rw [List.all_eq_true]
    intro c hc
    rw [isSigil_eq_false (hrun c hc)]
    rfl
  rw [placeholdersIn, takeWhile_run hrun hrest, hskip]
  simp [hsigil, hne]

/-! ## Section 2: Spaced rows -/

/-- The placeholder that a piece is. -/
def Piece.placeholder? : Piece → Option String
  | .plain _ => none
  | .name ns => some ns.name
  | .operand ns slot => some (ns.operand slot)

/-- The placeholders of a row of pieces. -/
def placeholders (pieces : List Piece) : List String := pieces.filterMap Piece.placeholder?

/-- The placeholders of the row can be told from what is around them. -/
inductive Spaced : List Piece → Prop where
  | nil : Spaced []
  | plain {text : String} {rest : List Piece}
      (htext : text.toList.all (fun c => !isSigil c) = true) (hrest : Spaced rest) :
      Spaced (.plain text :: rest)
  | name {ns : Namespace} {rest : List Piece} (hns : ns.WellFormed)
      (hstops : Stops isTokenChar (written rest).toList) (hrest : Spaced rest) :
      Spaced (.name ns :: rest)
  | operand {ns : Namespace} {slot : Slot} {rest : List Piece} (hns : ns.WellFormed)
      (hstops : Stops isTokenChar (written rest).toList) (hrest : Spaced rest) :
      Spaced (.operand ns slot :: rest)

/-- Spaced rows are put together to a spaced row when the second one does
    not continue what ends the first. -/
theorem Spaced.append {front back : List Piece} (hfront : Spaced front) (hback : Spaced back)
    (hstops : Stops isTokenChar (written back).toList) : Spaced (front ++ back) := by
  have hwritten {rest : List Piece} (h : Stops isTokenChar (written rest).toList) :
      Stops isTokenChar (written (rest ++ back)).toList := by
    rw [written_append, String.toList_append]
    exact h.append hstops
  induction hfront with
  | nil => exact hback
  | plain htext _ ih => exact .plain htext ih
  | name hns hrest _ ih => exact .name hns (hwritten hrest) ih
  | operand hns hrest _ ih => exact .operand hns (hwritten hrest) ih

/-- The scanner finds the placeholders of a spaced row. -/
theorem Spaced.placeholdersIn_written {pieces : List Piece} (h : Spaced pieces) :
    placeholdersIn (written pieces).toList = (placeholders pieces).map String.toList := by
  induction h with
  | nil => simp [placeholders, placeholdersIn]
  | plain htext _ ih =>
    rw [written_cons, String.toList_append]
    exact (placeholdersIn_append htext).trans ih
  | @name ns rest hns hstops _ ih =>
    have htext : (written (.name ns :: rest)).toList =
        '#' :: (ns.token.toList ++ (written rest).toList) := by
      simp [Piece.text, Namespace.toList_name]
    rw [htext, placeholdersIn_cons_append (by decide) hns.nonempty hns.tokenChars hstops, ih]
    simp [placeholders, Piece.placeholder?, Namespace.toList_name]
  | @operand ns slot rest hns hstops _ ih =>
    have htext : (written (.operand ns slot :: rest)).toList =
        ':' :: (ns.token.toList ++ slot.suffix.toList ++ (written rest).toList) := by
      simp [Piece.text, Namespace.toList_operand]
    have hne : ns.token.toList ++ slot.suffix.toList ≠ [] := by
      simp [hns.nonempty]
    rw [htext, placeholdersIn_cons_append (by decide) hne (hns.operand_tokenChars slot) hstops, ih]
    simp [placeholders, Piece.placeholder?, Namespace.toList_operand]

/-! ## Section 3: Layouts are spaced -/

/-- A plain text ends the placeholder before it unless it is empty or
    begins with a token character. -/
theorem stops_plain {text : String} {rest : List Piece}
    (h : text.toList.head?.any (fun c => !isTokenChar c) = true) :
    Stops isTokenChar (written (.plain text :: rest)).toList := by
  rw [written_cons, String.toList_append]
  show Stops isTokenChar (text.toList ++ (written rest).toList)
  cases htext : text.toList with
  | nil => simp [htext] at h
  | cons c cs =>
    have hc : isTokenChar c = false := by simpa [htext] using h
    exact stops_cons.mpr hc

private theorem spaced_operands {ns : Namespace} (hns : ns.WellFormed) : ∀ slots : List Slot,
    Spaced ((slots.map (Piece.operand ns)).intersperse (.plain ", "))
  | [] => .nil
  | [slot] => .operand hns (by simp) .nil
  | slot :: next :: rest => by
    have ih := spaced_operands hns (next :: rest)
    rw [List.map_cons, List.map_cons, List.intersperse_cons_cons]
    exact .operand hns (stops_plain (by decide)) (.plain (by decide) ih)

private theorem placeholders_operands (ns : Namespace) : ∀ slots : List Slot,
    placeholders ((slots.map (Piece.operand ns)).intersperse (.plain ", ")) = slots.map ns.operand
  | [] => rfl
  | [slot] => rfl
  | slot :: next :: rest => by
    have ih := placeholders_operands ns (next :: rest)
    rw [List.map_cons, List.map_cons, List.intersperse_cons_cons]
    unfold placeholders at ih ⊢
    simp only [List.filterMap_cons, Piece.placeholder?]
    rw [← List.map_cons, ih]
    rfl

theorem itemPieces_eq (ns : Namespace) (count : Nat) :
    itemPieces ns count =
      ((Shape.oneOf count).slots.map (Piece.operand ns)).intersperse (.plain ", ") := by
  unfold itemPieces Shape.slots
  rw [List.map_map]
  rfl

theorem spaced_itemPieces {ns : Namespace} (hns : ns.WellFormed) (count : Nat) :
    Spaced (itemPieces ns count) := by
  rw [itemPieces_eq]
  exact spaced_operands hns _

/-- The placeholders of a list are those of its values. -/
theorem placeholders_itemPieces (ns : Namespace) (count : Nat) :
    placeholders (itemPieces ns count) = (Shape.oneOf count).slots.map ns.operand := by
  rw [itemPieces_eq]
  exact placeholders_operands ns _

/-- Whatever the shape, its placeholders can be told from the text around. -/
theorem Shape.spaced_pieces {ns : Namespace} (hns : ns.WellFormed) (s : Shape) :
    Spaced (s.pieces ns) := by
  have hlast (slot : Slot) : Spaced [.operand ns slot] := .operand hns (by simp) .nil
  have hclose : Spaced [.plain ")"] := .plain (by decide) .nil
  have hclosed (slot : Slot) : Spaced [.operand ns slot, .plain ")"] :=
    .operand hns (stops_plain (by decide)) hclose
  have hpair (slot : Slot) : Spaced [.name ns, .plain ", ", .operand ns slot, .plain ")"] :=
    .name hns (stops_plain (by decide)) (.plain (by decide) (hclosed slot))
  have hname : Spaced [.name ns, .plain ")"] := .name hns (stops_plain (by decide)) hclose
  cases s with
  | compare op =>
    refine .name hns (stops_plain ?_) (.plain ?_ (hlast .sole))
    · cases op <;> decide
    · cases op <;> decide
  | between =>
    have hhigh : Spaced [.operand ns .low, .plain " AND ", .operand ns .high] :=
      .operand hns (stops_plain (by decide)) (.plain (by decide) (hlast .high))
    exact .name hns (stops_plain (by decide)) (.plain (by decide) hhigh)
  | beginsWith => exact .plain (by decide) (hpair .sole)
  | contains => exact .plain (by decide) (hpair .sole)
  | present => exact .plain (by decide) hname
  | absent => exact .plain (by decide) hname
  | size op =>
    refine .plain (by decide) (.name hns (stops_plain ?_) (.plain ?_ (hclosed .sole)))
    · cases op <;> decide
    · cases op <;> decide
  | oneOf count =>
    have hitems : Spaced (itemPieces ns count ++ [.plain ")"]) :=
      (spaced_itemPieces hns count).append hclose (stops_plain (by decide))
    exact .name hns (stops_plain (by decide)) (.plain (by decide) hitems)

/-- The placeholders of a shape are its name and its operands in order. -/
theorem Shape.placeholders_pieces (ns : Namespace) (s : Shape) :
    placeholders (s.pieces ns) = ns.name :: s.slots.map ns.operand := by
  cases s with
  | oneOf count =>
    have hitems : placeholders (itemPieces ns count ++ [.plain ")"]) =
        (Shape.oneOf count).slots.map ns.operand := by
      rw [← placeholders_itemPieces]
      unfold placeholders
      rw [List.filterMap_append]
      exact List.append_nil _
    rw [← hitems]
    rfl
  | _ => rfl

namespace Layout

/-- A layout is spaced when its leaves stand at well-formed namespaces. -/
theorem spaced_pieces {layout : Layout} (h : ∀ leaf ∈ layout.leaves, leaf.1.WellFormed) :
    Spaced layout.pieces := by
  have hclose : Spaced [.plain ")"] := .plain (by decide) .nil
  induction layout with
  | leaf leaf => exact leaf.2.spaced_pieces (h leaf List.mem_cons_self)
  | join left op right ihl ihr =>
    have hleft := ihl fun leaf hleaf => h leaf (List.mem_append_left _ hleaf)
    have hright := ihr fun leaf hleaf => h leaf (List.mem_append_right _ hleaf)
    have hback : Spaced (.plain (") " ++ op.token ++ " (") :: pieces right ++ [.plain ")"]) := by
      refine .plain ?_ (hright.append hclose (stops_plain (by decide)))
      cases op <;> decide
    rw [pieces, List.append_assoc]
    refine (Spaced.plain (by decide) hleft).append hback (stops_plain ?_)
    cases op <;> decide
  | negation inner ih =>
    exact .plain (by decide) ((ih h).append hclose (stops_plain (by decide)))

theorem placeholders_pieces (layout : Layout) :
    placeholders layout.pieces =
      layout.leaves.flatMap fun leaf => leaf.1.name :: leaf.2.slots.map leaf.1.operand := by
  induction layout with
  | leaf leaf =>
    rw [pieces, Shape.placeholders_pieces]
    simp [Expression.leaves]
  | join left op right ihl ihr =>
    rw [Expression.leaves, List.flatMap_append, ← ihl, ← ihr]
    simp [placeholders, pieces, List.filterMap_cons, Piece.placeholder?]
  | negation inner ih =>
    rw [Expression.leaves, ← ih]
    simp [placeholders, pieces, List.filterMap_cons, Piece.placeholder?]

end Layout

/-! ## Section 4: Text and tables agree -/

/-- The placeholders of a mark are those found that begin with its sigil. -/
theorem Placeholders.mem_keys_marked_iff {sigil : Char} {found : List (List Char)}
    {key : String} :
    key ∈ (marked sigil found).keys ↔ key.toList ∈ found ∧ key.toList.head? = some sigil := by
  unfold marked
  rw [Table.mem_keys_ofList_iff, List.map_map, List.mem_map]
  constructor
  · intro hmapped
    obtain ⟨chars, hchars, rfl⟩ := hmapped
    rw [List.mem_filter, decide_eq_true_eq] at hchars
    simpa using hchars
  · intro hkey
    obtain ⟨hfound, hhead⟩ := hkey
    refine ⟨key.toList, List.mem_filter.mpr ⟨hfound, by simpa using hhead⟩, ?_⟩
    simp

/-- Text and tables of a compiled expression hold the same placeholders. -/
structure CompiledExpression.Covered (x : CompiledExpression) : Prop where
  names : (Placeholders.scan x.expression).names.keys = x.names.keys
  values : (Placeholders.scan x.expression).values.keys = x.values.keys

namespace Rendered

variable {encode : Encoder} {ns : Namespace} {c : Condition} {out : CompiledExpression}

/-- The scanner finds the placeholders of all leaves. -/
theorem toList_mem_placeholdersIn_iff (hns : ns.WellFormed) (h : Rendered encode ns c out)
    {key : String} :
    key.toList ∈ placeholdersIn out.expression.toList ↔
      ∃ leaf ∈ (c.layout ns).leaves, key = leaf.1.name ∨ ∃ slot ∈ leaf.2.slots,
        key = leaf.1.operand slot := by
  have hspaced : Spaced (Layout.pieces (c.layout ns)) :=
    Layout.spaced_pieces (Condition.wellFormed_layout hns c)
  rw [h.expression_eq, hspaced.placeholdersIn_written, Layout.placeholders_pieces,
    List.mem_map]
  constructor
  · intro hmapped
    obtain ⟨found, hfound, heq⟩ := hmapped
    obtain rfl : found = key := String.toList_inj.mp heq
    simpa [eq_comm] using hfound
  · intro hkey
    exact ⟨key, by simpa [eq_comm] using hkey, rfl⟩

/-- What a well-formed namespace is rendered to is covered. -/
theorem covered (hns : ns.WellFormed) (h : Rendered encode ns c out) : out.Covered := by
  have hname (ns : Namespace) : ns.name.toList.head? = some '#' := by
    rw [ns.toList_name, List.head?_cons]
  have hoperand (ns : Namespace) (slot : Slot) : (ns.operand slot).toList.head? = some ':' := by
    rw [ns.toList_operand, List.head?_cons]
  constructor
  · apply Table.keys_eq_of_mem_iff
    intro key
    unfold Placeholders.scan
    rw [Placeholders.mem_keys_marked_iff, toList_mem_placeholdersIn_iff hns h,
      h.names_keys_perm.mem_iff, List.mem_map]
    constructor
    · intro hkey
      obtain ⟨⟨leaf, hleaf, hwhich⟩, hhead⟩ := hkey
      rcases hwhich with rfl | ⟨slot, _, rfl⟩
      · exact ⟨leaf, hleaf, rfl⟩
      · rw [hoperand] at hhead
        exact absurd hhead (by decide)
    · intro hkey
      obtain ⟨leaf, hleaf, rfl⟩ := hkey
      exact ⟨⟨leaf, hleaf, .inl rfl⟩, hname _⟩
  · apply Table.keys_eq_of_mem_iff
    intro key
    unfold Placeholders.scan
    rw [Placeholders.mem_keys_marked_iff, toList_mem_placeholdersIn_iff hns h,
      h.values_keys_perm.mem_iff, List.mem_flatMap]
    constructor
    · intro hkey
      obtain ⟨⟨leaf, hleaf, hwhich⟩, hhead⟩ := hkey
      rcases hwhich with rfl | ⟨slot, hslot, rfl⟩
      · rw [hname] at hhead
        exact absurd hhead (by decide)
      · exact ⟨leaf, hleaf, List.mem_map.mpr ⟨slot, hslot, rfl⟩⟩
    · intro hname
      obtain ⟨leaf, hleaf, hkey⟩ := hname
      obtain ⟨slot, hslot, rfl⟩ := List.mem_map.mp hkey
      exact ⟨⟨leaf, hleaf, .inr ⟨slot, hslot, rfl⟩⟩, hoperand _ _⟩

end Rendered

/-- Under a well-formed root token every rendered condition is covered. -/
theorem Condition.covered_of_render {encode : Encoder} {token : String} {c : Condition}
    {x : CompiledExpression} (htoken : isRootToken token = true)
    (h : c.render encode (.root token) = .ok x) : x.Covered :=
  (render_eq_ok_iff.mp h).1.covered (Namespace.wellFormed_root htoken)

/-! ## Section 5: The coverage check -/

theorem Table.firstMissing_eq_none_iff {α β : Type} {t : Table α} {u : Table β} :
    t.firstMissing u = none ↔ ∀ key ∈ t.keys, key ∈ u.keys := by
  unfold firstMissing
  simp [List.find?_eq_none, contains_eq_true_iff]

/-- The check accepts exactly the covered expressions. -/
theorem CompiledExpression.checkCoverage_eq_ok_iff {x : CompiledExpression} :
    x.checkCoverage = .ok () ↔ x.Covered := by
  constructor
  · intro h
    unfold checkCoverage at h
    dsimp only at h
    split at h
    · cases h
    · cases h
    · cases h
    · cases h
    · rename_i hnames hvalues hnames' hvalues'
      rw [Table.firstMissing_eq_none_iff] at hnames hvalues hnames' hvalues'
      exact ⟨Table.keys_eq_of_mem_iff fun key => ⟨hnames key, hnames' key⟩,
        Table.keys_eq_of_mem_iff fun key => ⟨hvalues key, hvalues' key⟩⟩
  · intro h
    have hnames : (Placeholders.scan x.expression).names.firstMissing x.names = none :=
      Table.firstMissing_eq_none_iff.mpr fun key hkey => h.names ▸ hkey
    have hvalues : (Placeholders.scan x.expression).values.firstMissing x.values = none :=
      Table.firstMissing_eq_none_iff.mpr fun key hkey => h.values ▸ hkey
    have hnames' : x.names.firstMissing (Placeholders.scan x.expression).names = none :=
      Table.firstMissing_eq_none_iff.mpr fun key hkey => h.names ▸ hkey
    have hvalues' : x.values.firstMissing (Placeholders.scan x.expression).values = none :=
      Table.firstMissing_eq_none_iff.mpr fun key hkey => h.values ▸ hkey
    unfold checkCoverage
    dsimp only
    rw [hnames, hvalues, hnames', hvalues']

/-! ## Section 6: Compilers -/

/-- Options are accepted when both root tokens are well-formed and neither
    begins like a namespace below the other. -/
theorem Options.check_eq_ok_iff {o : Options} :
    o.check = .ok () ↔
      isRootToken o.conditionRoot = true ∧ isRootToken o.filterRoot = true ∧
        isBelow o.conditionRoot o.filterRoot = false ∧
        isBelow o.filterRoot o.conditionRoot = false := by
  unfold Options.check checkRoot
  by_cases hcondition : isRootToken o.conditionRoot = true
  · by_cases hfilter : isRootToken o.filterRoot = true
    · rw [if_pos hcondition, if_pos hfilter, ← Bool.or_eq_false_iff, ← Bool.not_eq_true]
      simp only [hcondition, hfilter, true_and]
      exact ite_error_eq_ok_iff.trans (and_iff_left rfl)
    · simp [hcondition, hfilter, bind, Except.bind]
  · simp [hcondition, bind, Except.bind]

/-- The root tokens of accepted options are well-formed. -/
theorem Options.isRootToken_of_check {o : Options} (h : o.check = .ok ()) :
    isRootToken o.conditionRoot = true ∧ isRootToken o.filterRoot = true := by
  obtain ⟨hcondition, hfilter, _⟩ := Options.check_eq_ok_iff.mp h
  exact ⟨hcondition, hfilter⟩

theorem CompileError.ofDocument_ne_root (cause : DocumentError) (e : RootError) :
    ofDocument cause ≠ .root e := by
  cases cause <;> simp [ofDocument]

/-- What is compiled from a document is refused because of its root only if
    the tree in it is. -/
theorem CompileError.bind_ne_root {α : Type} {x : Except DocumentError α}
    {next : α → Except CompileError CompiledExpression} {e : RootError}
    (hnext : ∀ a, next a ≠ .error (.root e)) :
    x.mapError .ofDocument >>= next ≠ .error (.root e) := by
  cases x with
  | error cause =>
    intro h
    exact ofDocument_ne_root cause e (Except.error.inj h)
  | ok a => exact hnext a

namespace Compiler

/-- The compiler with the coverage check switched on or off. -/
def checking (compiler : Compiler) (check : Bool) : Compiler :=
  { compiler with
    options := { compiler.options with checkCoverage := check }
    accepted := compiler.accepted }

/-- A compiler lets covered expressions through, checking or not. -/
theorem finish_eq_ok (compiler : Compiler) {x : CompiledExpression} (h : x.Covered) :
    compiler.finish x = .ok x := by
  unfold finish
  rw [CompiledExpression.checkCoverage_eq_ok_iff.mpr h]
  cases compiler.options.checkCoverage <;> rfl

/-- Only the root token and the rendering decide what becomes of a tree. -/
theorem conditionUnder_eq (compiler : Compiler) (token : String) (c : Condition) :
    compiler.conditionUnder token c =
      if isRootToken token then (c.render compiler.encode (.root token)).mapError .render
      else .error (.root (.malformed token)) := by
  unfold conditionUnder checkRoot
  by_cases htoken : isRootToken token = true
  · rw [if_pos htoken, if_pos htoken]
    cases hrender : c.render compiler.encode (.root token) with
    | error e => rfl
    | ok x => exact compiler.finish_eq_ok (Condition.covered_of_render htoken hrender)
  · rw [if_neg htoken, if_neg htoken]
    rfl

theorem conditionUnder_eq_ok_iff {compiler : Compiler} {token : String} {c : Condition}
    {x : CompiledExpression} :
    compiler.conditionUnder token c = .ok x ↔
      isRootToken token = true ∧ c.render compiler.encode (.root token) = .ok x := by
  rw [conditionUnder_eq]
  by_cases htoken : isRootToken token = true
  · rw [if_pos htoken, and_iff_right htoken]
    cases c.render compiler.encode (.root token) <;> simp [Except.mapError]
  · rw [if_neg htoken]
    simp [htoken]

/-- A filter is compiled as the condition it widens to. -/
theorem filterUnder_eq (compiler : Compiler) (token : String) (f : Filter) :
    compiler.filterUnder token f = compiler.conditionUnder token f.widen :=
  rfl

theorem conditionDocument_of_ok {compiler : Compiler} {doc : Json} {c : Condition}
    (h : Document.read doc = .ok c) :
    compiler.conditionDocument doc =
      compiler.conditionUnder compiler.options.conditionRoot c := by
  rw [conditionDocument, h]
  rfl

/-- A document that cannot be read is refused with the reader's error. -/
theorem conditionDocument_of_error {compiler : Compiler} {doc : Json} {e : DocumentError}
    (h : Document.read doc = .error e) :
    compiler.conditionDocument doc = .error (.ofDocument e) := by
  rw [conditionDocument, h]
  rfl

theorem conditionUnder_checking (compiler : Compiler) (check : Bool) (token : String)
    (c : Condition) :
    (compiler.checking check).conditionUnder token c = compiler.conditionUnder token c := by
  rw [conditionUnder_eq, conditionUnder_eq]
  rfl

/-- A tree is refused because it cannot be rendered, or because of a root
    token that is not well-formed. -/
theorem conditionUnder_eq_error {compiler : Compiler} {token : String} {c : Condition}
    {e : CompileError} (h : compiler.conditionUnder token c = .error e) :
    (∃ cause, e = .render cause) ∨
      isRootToken token = false ∧ e = .root (.malformed token) := by
  rw [conditionUnder_eq] at h
  by_cases htoken : isRootToken token = true
  · rw [if_pos htoken] at h
    cases hrender : c.render compiler.encode (.root token) with
    | error cause =>
      rw [hrender] at h
      exact .inl ⟨cause, (Except.error.inj h).symm⟩
    | ok x =>
      rw [hrender] at h
      cases h
  · rw [if_neg htoken] at h
    exact .inr ⟨Bool.eq_false_iff.mpr htoken, (Except.error.inj h).symm⟩

theorem conditionUnder_ne_coverage (compiler : Compiler) (token : String) (c : Condition)
    (e : CoverageError) : compiler.conditionUnder token c ≠ .error (.coverage e) := by
  intro h
  rcases conditionUnder_eq_error h with ⟨cause, hcause⟩ | ⟨_, hroot⟩
  · cases hcause
  · cases hroot

theorem conditionUnder_ne_root {compiler : Compiler} {token : String}
    (htoken : isRootToken token = true) (c : Condition) (e : RootError) :
    compiler.conditionUnder token c ≠ .error (.root e) := by
  intro h
  rcases conditionUnder_eq_error h with ⟨cause, hcause⟩ | ⟨hfalse, _⟩
  · cases hcause
  · rw [htoken] at hfalse
    cases hfalse

/-- **Coverage.** Under a well-formed root token every rendered condition
    and every rendered filter holds in its text exactly the placeholders of
    its tables, and the coverage check accepts it. So for every compiler,
    root token and tree the check changes no answer and is never the one to
    fail; and under the compiler's own root tokens no tree and no document
    is refused because of its root. -/
theorem output_covered :
    (∀ encode token c x, isRootToken token = true →
      Condition.render encode (.root token) c = .ok x → x.Covered ∧ x.checkCoverage = .ok ()) ∧
    (∀ encode token f x, isRootToken token = true →
      Filter.render encode token f = .ok x → x.Covered ∧ x.checkCoverage = .ok ()) ∧
    ∀ compiler : Compiler,
      (∀ token c,
        (compiler.checking true).conditionUnder token c =
          (compiler.checking false).conditionUnder token c ∧
        ∀ e, compiler.conditionUnder token c ≠ .error (.coverage e)) ∧
      (∀ token f,
        (compiler.checking true).filterUnder token f =
          (compiler.checking false).filterUnder token f ∧
        ∀ e, compiler.filterUnder token f ≠ .error (.coverage e)) ∧
      (∀ c e, compiler.condition c ≠ .error (.root e)) ∧
      (∀ f e, compiler.filter f ≠ .error (.root e)) ∧
      (∀ doc e, compiler.conditionDocument doc ≠ .error (.root e)) ∧
      ∀ doc e, compiler.filterDocument doc ≠ .error (.root e) := by
  have hcovered (encode : Encoder) (token : String) (c : Condition) (x : CompiledExpression)
      (htoken : isRootToken token = true) (h : c.render encode (.root token) = .ok x) :
      x.Covered ∧ x.checkCoverage = .ok () := by
    have hx : x.Covered := Condition.covered_of_render htoken h
    exact ⟨hx, CompiledExpression.checkCoverage_eq_ok_iff.mpr hx⟩
  have hunder (compiler : Compiler) (token : String) (c : Condition) :
      (compiler.checking true).conditionUnder token c =
          (compiler.checking false).conditionUnder token c ∧
        ∀ e, compiler.conditionUnder token c ≠ .error (.coverage e) := by
    refine ⟨?_, compiler.conditionUnder_ne_coverage token c⟩
    rw [conditionUnder_checking, conditionUnder_checking]
  -- A filter is rendered, and so compiled, as the condition it widens to.
  refine ⟨hcovered, fun encode token f x => hcovered encode token f.widen x, ?_⟩
  intro compiler
  obtain ⟨hcondition, hfilter⟩ := Options.isRootToken_of_check compiler.accepted
  have hc (c : Condition) (e : RootError) : compiler.condition c ≠ .error (.root e) :=
    conditionUnder_ne_root hcondition c e
  have hf (f : Filter) (e : RootError) : compiler.filter f ≠ .error (.root e) :=
    conditionUnder_ne_root hfilter f.widen e
  exact ⟨hunder compiler, fun token f => hunder compiler token f.widen, hc, hf,
    fun _ e => CompileError.bind_ne_root fun c => hc c e,
    fun _ e => CompileError.bind_ne_root fun f => hf f e⟩

/-- A size test, with its lone closing parenthesis, beside a negated list of
    values. -/
theorem output_covered_size_and_list :
    ∃ x, Condition.render .standard (.root "D")
        (.join (.leaf (.size "tags" .ge (.signedZero false))) .or
          (.negation (.leaf (.oneOf "kind" [.text "#a", .boolean true])))) = .ok x ∧
      x.expression = "(size(#D_0_0) >= :D_0_0)) OR (NOT (#D_1_0_0 IN (:D_1_0_0I0, :D_1_0_0I1)))" ∧
      x.Covered ∧ x.checkCoverage = .ok () := by
  have h : Condition.render .standard (.root "D")
      (.join (.leaf (.size "tags" .ge (.signedZero false))) .or
        (.negation (.leaf (.oneOf "kind" [.text "#a", .boolean true])))) = .ok _ := rfl
  obtain ⟨hcondition, _⟩ := output_covered
  exact ⟨_, h, rfl, hcondition _ _ _ _ (by decide) h⟩

end Compiler
end CondExpr
