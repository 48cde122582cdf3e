import CondExpr.Proofs.Scanner

/-! # What the coverage check reports

  Text and tables can disagree in four ways, and in each of them at several
  placeholders. The check takes the ways in a fixed order and in each of them
  the keys in ascending order, so of all disagreements it reports one that is
  determined by the sets of placeholders alone: the smallest placeholder of
  the first way that occurs. Where it stands in the text and what it stands
  for plays no part.
-/

namespace CondExpr

/-! ## Section 1: Missing keys -/

namespace Table

variable {α β : Type} {t : Table α} {u : Table β} {key : String}

/-- The first key that is missing is the one with the smallest bytes. -/
theorem firstMissing_eq_some_iff :
    t.firstMissing u = some key ↔
      (key ∈ t.keys ∧ key ∉ u.keys) ∧
        ∀ other, other ∈ t.keys ∧ other ∉ u.keys → utf8Bytes key ≤ utf8Bytes other := by
  have hmissing (other : String) : (!u.contains other) = true ↔ other ∉ u.keys := by
    rw [Bool.not_eq_true', ← Bool.not_eq_true, contains_eq_true_iff]
  unfold firstMissing
  rw [List.find?_eq_some_iff_append, hmissing]
  constructor
  · intro h
    obtain ⟨hkey, before, after, hsplit, hbefore⟩ := h
    have hascending := t.keys_ascending
    rw [hsplit] at hascending
    have hafter := (List.pairwise_cons.mp (List.pairwise_append.mp hascending).2.1).1
    rw [hsplit]
    refine ⟨⟨List.mem_append_right _ List.mem_cons_self, hkey⟩, ?_⟩
    intro other hother
    obtain ⟨hmem, hnot⟩ := hother
    rw [utf8Bytes_le_iff]
    -- The keys before it are present, and those behind it are greater.
    rcases List.mem_append.mp hmem with hmem | hmem
    · have hpresent := hbefore other hmem
      rw [(hmissing other).mpr hnot] at hpresent
      cases hpresent
    · rcases List.mem_cons.mp hmem with rfl | hmem
      · exact String.le_refl other
      · intro hlt
        exact lt_asymm hlt (hafter other hmem)
  · intro h
    obtain ⟨⟨hmem, hkey⟩, hleast⟩ := h
    obtain ⟨before, after, hsplit⟩ := List.append_of_mem hmem
    have hascending := t.keys_ascending
    rw [hsplit] at hascending
    refine ⟨hkey, before, after, hsplit, ?_⟩
    intro other hother
    -- A smaller key that is missing would be the smallest instead.
    by_contra hpresent
    have hnot : other ∉ u.keys := (hmissing other).mp (by simpa using hpresent)
    have hlt : other < key := (List.pairwise_append.mp hascending).2.2 other hother key
      List.mem_cons_self
    have hle := hleast other ⟨hsplit ▸ List.mem_append_left _ hother, hnot⟩
    rw [utf8Bytes_le_iff] at hle
    exact hle hlt

end Table

/-! ## Section 2: Defects -/

/-- The ways in which text and tables disagree. -/
inductive Defect where
  /-- A name placeholder of the text has no entry. -/
  | unresolvedName
  /-- A value placeholder of the text has no entry. -/
  | unresolvedValue
  /-- An entry for a name is not used in the text. -/
  | unusedName
  /-- An entry for a value is not used in the text. -/
  | unusedValue
  deriving DecidableEq, Repr

namespace Defect

/-- All defects, in the order in which they are reported. -/
def all : List Defect := [.unresolvedName, .unresolvedValue, .unusedName, .unusedValue]

/-- The report of a defect at a placeholder. -/
def error : Defect → String → CoverageError
  | .unresolvedName => .unresolvedName
  | .unresolvedValue => .unresolvedValue
  | .unusedName => .unusedName
  | .unusedValue => .unusedValue

/-- The compiled expression has the defect at a placeholder. -/
def Affects (x : CompiledExpression) (placeholder : String) : Defect → Prop
  | .unresolvedName =>
    PlaceholderIn x.expression '#' placeholder ∧ placeholder ∉ x.names.keys
  | .unresolvedValue =>
    PlaceholderIn x.expression ':' placeholder ∧ placeholder ∉ x.values.keys
  | .unusedName =>
    placeholder ∈ x.names.keys ∧ ¬ PlaceholderIn x.expression '#' placeholder
  | .unusedValue =>
    placeholder ∈ x.values.keys ∧ ¬ PlaceholderIn x.expression ':' placeholder

/-- The placeholder at which a defect is reported, if it occurs. -/
def first? (x : CompiledExpression) : Defect → Option String
  | .unresolvedName => (Placeholders.scan x.expression).names.firstMissing x.names
  | .unresolvedValue => (Placeholders.scan x.expression).values.firstMissing x.values
  | .unusedName => x.names.firstMissing (Placeholders.scan x.expression).names
  | .unusedValue => x.values.firstMissing (Placeholders.scan x.expression).values

variable {x : CompiledExpression} {d : Defect} {key : String}

/-- A defect is reported at the smallest placeholder that it affects. -/
theorem first?_eq_some_iff :
    d.first? x = some key ↔
      d.Affects x key ∧ ∀ other, d.Affects x other → utf8Bytes key ≤ utf8Bytes other := by
  cases d <;>
    simp only [first?, Affects, Table.firstMissing_eq_some_iff, Placeholders.mem_names_scan_iff,
      Placeholders.mem_values_scan_iff]

/-- A defect is not reported if it affects no placeholder. -/
theorem first?_eq_none_iff : d.first? x = none ↔ ∀ other, ¬ d.Affects x other := by
  cases d <;>
    simp only [first?, Affects, Table.firstMissing_eq_none_iff, Placeholders.mem_names_scan_iff,
      Placeholders.mem_values_scan_iff, not_and, not_not]

end Defect

/-! ## Section 3: The check -/

namespace CompiledExpression

variable {x : CompiledExpression}

/-- The check reports the first defect that occurs. -/
theorem checkCoverage_eq (x : CompiledExpression) :
    x.checkCoverage =
      match Defect.all.findSome? fun d => (d.first? x).map d.error with
      | some e => .error e
      | none => .ok () := by
  unfold checkCoverage
  dsimp only
  simp only [Defect.all, List.findSome?_cons, List.findSome?_nil, Defect.first?]
  -- The check looks at all four at once; the first one present decides.
  cases (Placeholders.scan x.expression).names.firstMissing x.names with
  | some p => rfl
  | none =>
    cases (Placeholders.scan x.expression).values.firstMissing x.values with
    | some p => rfl
    | none =>
      cases x.names.firstMissing (Placeholders.scan x.expression).names with
      | some p => rfl
      | none => cases x.values.firstMissing (Placeholders.scan x.expression).values <;> rfl

theorem checkCoverage_eq_error_iff {e : CoverageError} :
    x.checkCoverage = .error e ↔
      ∃ earlier d later key, Defect.all = earlier ++ d :: later ∧
        (∀ d' ∈ earlier, ∀ other, ¬ d'.Affects x other) ∧ d.Affects x key ∧
        (∀ other, d.Affects x other → utf8Bytes key ≤ utf8Bytes other) ∧ e = d.error key := by
  have hfirst : x.checkCoverage = .error e ↔
      (Defect.all.findSome? fun d => (d.first? x).map d.error) = some e := by
    rw [checkCoverage_eq]
    cases Defect.all.findSome? fun d => (d.first? x).map d.error <;> simp
  rw [hfirst, List.findSome?_eq_some_iff]
  constructor
  · intro h
    obtain ⟨earlier, d, later, hall, hd, hearlier⟩ := h
    obtain ⟨key, hkey, rfl⟩ := Option.map_eq_some_iff.mp hd
    obtain ⟨haffects, hleast⟩ := Defect.first?_eq_some_iff.mp hkey
    refine ⟨earlier, d, later, key, hall, ?_, haffects, hleast, rfl⟩
    intro d' hd'
    exact Defect.first?_eq_none_iff.mp (Option.map_eq_none_iff.mp (hearlier d' hd'))
  · intro h
    obtain ⟨earlier, d, later, key, hall, hearlier, haffects, hleast, rfl⟩ := h
    refine ⟨earlier, d, later, hall, ?_, ?_⟩
    · rw [Defect.first?_eq_some_iff.mpr ⟨haffects, hleast⟩]
      rfl
    · intro d' hd'
      rw [Defect.first?_eq_none_iff.mpr (hearlier d' hd')]
      rfl

/-- The check accepts when the placeholders of the text are the keys. -/
theorem checkCoverage_eq_ok_iff_placeholderIn :
    x.checkCoverage = .ok () ↔
      (∀ key, PlaceholderIn x.expression '#' key ↔ key ∈ x.names.keys) ∧
        ∀ key, PlaceholderIn x.expression ':' key ↔ key ∈ x.values.keys := by
  rw [checkCoverage_eq_ok_iff]
  constructor
  · intro h
    constructor
    · intro key
      rw [← Placeholders.mem_names_scan_iff, h.names]
    · intro key
      rw [← Placeholders.mem_values_scan_iff, h.values]
  · intro h
    obtain ⟨hnames, hvalues⟩ := h
    constructor
    · apply Table.keys_eq_of_mem_iff
      intro key
      rw [Placeholders.mem_names_scan_iff, hnames]
    · apply Table.keys_eq_of_mem_iff
      intro key
      rw [Placeholders.mem_values_scan_iff, hvalues]

/-- Only the sets of placeholders, in the text and in the tables, decide. -/
theorem checkCoverage_congr {y : CompiledExpression}
    (hnamesIn : ∀ key, PlaceholderIn y.expression '#' key ↔ PlaceholderIn x.expression '#' key)
    (hvaluesIn : ∀ key, PlaceholderIn y.expression ':' key ↔ PlaceholderIn x.expression ':' key)
    (hnames : ∀ key, key ∈ y.names.keys ↔ key ∈ x.names.keys)
    (hvalues : ∀ key, key ∈ y.values.keys ↔ key ∈ x.values.keys) :
    y.checkCoverage = x.checkCoverage := by
  have haffects (d : Defect) (key : String) : d.Affects y key ↔ d.Affects x key := by
    cases d <;> simp only [Defect.Affects, hnamesIn, hvaluesIn, hnames, hvalues]
  -- The two laws above tell each answer by what is affected.
  cases hx : x.checkCoverage with
  | ok u =>
    rw [checkCoverage_eq_ok_iff_placeholderIn] at hx ⊢
    simpa only [hnamesIn, hvaluesIn, hnames, hvalues] using hx
  | error e =>
    rw [checkCoverage_eq_error_iff] at hx ⊢
    simpa only [haffects] using hx

/-- **Coverage is decided exactly.** The check accepts a compiled expression,
    whatever its text and tables are, just if the `#` placeholders of the text
    are the keys of the names and the `:` placeholders those of the values.
    Otherwise it reports the first defect that occurs, in the order of
    `Defect.all`, at the placeholder with the smallest bytes that the defect
    affects. Expressions with the same placeholders in text and tables get the
    same answer, wherever the placeholders stand and whatever they stand for. -/
theorem coverage_decided (x : CompiledExpression) :
    (x.checkCoverage = .ok () ↔
      (∀ key, PlaceholderIn x.expression '#' key ↔ key ∈ x.names.keys) ∧
        ∀ key, PlaceholderIn x.expression ':' key ↔ key ∈ x.values.keys) ∧
    (∀ e, x.checkCoverage = .error e ↔
      ∃ earlier d later key, Defect.all = earlier ++ d :: later ∧
        (∀ d' ∈ earlier, ∀ other, ¬ d'.Affects x other) ∧ d.Affects x key ∧
        (∀ other, d.Affects x other → utf8Bytes key ≤ utf8Bytes other) ∧ e = d.error key) ∧
    ∀ y : CompiledExpression,
      (∀ key, PlaceholderIn y.expression '#' key ↔ PlaceholderIn x.expression '#' key) →
      (∀ key, PlaceholderIn y.expression ':' key ↔ PlaceholderIn x.expression ':' key) →
      (∀ key, key ∈ y.names.keys ↔ key ∈ x.names.keys) →
      (∀ key, key ∈ y.values.keys ↔ key ∈ x.values.keys) →
        y.checkCoverage = x.checkCoverage :=
  ⟨checkCoverage_eq_ok_iff_placeholderIn, fun _ => checkCoverage_eq_error_iff,
    fun _ => checkCoverage_congr⟩

/-- Of two values without an entry the smaller one is reported, before the
    unused entries, and no less when the text has them the other way round. -/
theorem coverage_decided_two_values :
    CompiledExpression.checkCoverage ⟨"#n = :v10 OR #n = :v1", .ofList [("#n", "a"), ("n", "b")],
        .ofList [(":v", .boolean true)]⟩ = .error (.unresolvedValue ":v1") ∧
      CompiledExpression.checkCoverage ⟨":v1:v10#n", .ofList [("n", "a"), ("#n", "b")],
        .ofList [(":v", .numeral "7")]⟩ = .error (.unresolvedValue ":v1") := by
  have hx : CompiledExpression.checkCoverage ⟨"#n = :v10 OR #n = :v1",
      .ofList [("#n", "a"), ("n", "b")], .ofList [(":v", .boolean true)]⟩ =
        .error (.unresolvedValue ":v1") := by decide +kernel
  have hscan : Placeholders.scan ":v1:v10#n" = Placeholders.scan "#n = :v10 OR #n = :v1" := by
    decide +kernel
  have hnames : (Table.ofList [("n", "a"), ("#n", "b")]).keys =
      (Table.ofList [("#n", "a"), ("n", "b")]).keys := by decide +kernel
  refine ⟨hx, ?_⟩
  rw [← hx]
  apply (coverage_decided _).2.2
  · intro key
    rw [← Placeholders.mem_names_scan_iff, ← Placeholders.mem_names_scan_iff, hscan]
  · intro key
    rw [← Placeholders.mem_values_scan_iff, ← Placeholders.mem_values_scan_iff, hscan]
  · intro key
    rw [hnames]
  · intro key
    rfl

end CompiledExpression
end CondExpr
