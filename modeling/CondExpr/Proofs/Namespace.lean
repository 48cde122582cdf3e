import CondExpr.Compiled.Namespace
import CondExpr.Proofs.Run

/-! # Namespaces as addresses

  A namespace below a root is reached by a path of child indices, and an
  operand of the predicate there by its slot. Paths and slots can be told
  apart by the placeholder: the digits of an index are a run that neither
  an underscore nor an `I` continues, and `_L` and `_R` hold a letter that
  is no digit. So nothing but the root and the address goes into a
  placeholder, and two addresses never share one.
-/

namespace CondExpr

/-! ## Section 1: Digits -/

/-- A digit of a child index. -/
def isIndexDigit (c : Char) : Bool := "0123456789abcdef".toList.contains c

theorem isTokenChar_of_isIndexDigit {c : Char} (h : isIndexDigit c = true) :
    isTokenChar c = true := by
  have hall : "0123456789abcdef".toList.all isTokenChar = true := by decide
  exact List.all_eq_true.mp hall c (by simpa [isIndexDigit] using h)

theorem isIndexDigit_of_mem_toDigits {b n : Nat} {c : Char} (hb : 1 < b) (hle : b ≤ 16)
    (hc : c ∈ Nat.toDigits b n) : isIndexDigit c = true := by
  have hdigit : ∀ d < 16, isIndexDigit (Nat.digitChar d) = true := by decide
  induction n using Nat.strongRecOn with
  | ind n ih =>
    rw [Nat.toDigits_eq_if hb] at hc
    split at hc
    · rename_i hlt
      rw [List.mem_singleton.mp hc]
      exact hdigit n (by omega)
    · rename_i hge
      rcases List.mem_append.mp hc with hc | hc
      · exact ih (n / b) (Nat.div_lt_self (by omega) hb) hc
      · rw [List.mem_singleton.mp hc]
        exact hdigit (n % b) (by have := Nat.mod_lt n (show b > 0 by omega); omega)

/-- A number is told by its digits, in any base up to sixteen. -/
theorem toDigits_injective {b m n : Nat} (hb : 1 < b) (hle : b ≤ 16)
    (h : Nat.toDigits b m = Nat.toDigits b n) : m = n := by
  have hinj : ∀ d < 16, ∀ e < 16, Nat.digitChar d = Nat.digitChar e → d = e := by decide
  induction m using Nat.strongRecOn generalizing n with
  | ind m ih =>
    have hm := Nat.mod_lt m (show b > 0 by omega)
    have hn := Nat.mod_lt n (show b > 0 by omega)
    have hpos {k : Nat} : 0 < (Nat.toDigits b k).length := Nat.length_toDigits_pos
    rw [Nat.toDigits_eq_if hb (n := m), Nat.toDigits_eq_if hb (n := n)] at h
    split at h <;> split at h
    · exact hinj m (by omega) n (by omega) (List.singleton_inj.mp h)
    · have hlen := congrArg List.length h
      have := hpos (k := n / b)
      simp at hlen
    · have hlen := congrArg List.length h
      have := hpos (k := m / b)
      simp at hlen
    · obtain ⟨hfront, hlast⟩ := List.append_inj' h rfl
      have hmod : m % b = n % b :=
        hinj _ (by omega) _ (by omega) (List.singleton_inj.mp hlast)
      have hdiv : m / b = n / b := ih (m / b) (Nat.div_lt_self (by omega) hb) hfront
      rw [← Nat.div_add_mod m b, ← Nat.div_add_mod n b, hdiv, hmod]

/-! ## Section 2: Slots and paths -/

/-- The place of an operand among the operands of its predicate. -/
inductive Slot where
  /-- The only operand. -/
  | sole
  /-- The lower end of a range. -/
  | low
  /-- The upper end of a range. -/
  | high
  /-- A value of a list. -/
  | item (index : Nat)
  deriving DecidableEq, Repr

/-- What the slot adds to the placeholder. -/
def Slot.suffix : Slot → String
  | .sole => ""
  | .low => "_L"
  | .high => "_R"
  | .item index => "I" ++ toString index

namespace Namespace

/-- The placeholder of an operand. -/
def operand (ns : Namespace) (slot : Slot) : String := ns.suffixedValue slot.suffix

@[simp] theorem operand_sole (ns : Namespace) : ns.operand .sole = ns.value := by
  simp [operand, suffixedValue, value, Slot.suffix]

theorem toList_name (ns : Namespace) : ns.name.toList = '#' :: ns.token.toList := by
  simp [name]

theorem toList_operand (ns : Namespace) (slot : Slot) :
    (ns.operand slot).toList = ':' :: (ns.token.toList ++ slot.suffix.toList) := by
  simp [operand, suffixedValue]

/-- The namespace that a path of child indices leads to. -/
def descend (ns : Namespace) (path : List Nat) : Namespace := path.foldl child ns

@[simp] theorem descend_nil (ns : Namespace) : ns.descend [] = ns := rfl

@[simp] theorem descend_cons (ns : Namespace) (index : Nat) (path : List Nat) :
    ns.descend (index :: path) = (ns.child index).descend path := rfl

theorem child_descend (ns : Namespace) (path : List Nat) (index : Nat) :
    (ns.descend path).child index = ns.descend (path ++ [index]) := by
  simp [descend]

/-- What a path adds to the token. -/
def pathText (path : List Nat) : List Char := path.flatMap fun index => '_' :: Nat.toDigits 16 index

theorem token_descend (ns : Namespace) (path : List Nat) :
    (ns.descend path).token.toList = ns.token.toList ++ pathText path := by
  induction path generalizing ns with
  | nil => simp [pathText]
  | cons index path ih =>
    rw [descend_cons, ih]
    simp [child, pathText]

/-! ## Section 3: Addresses are told apart -/

theorem toList_suffix_item (index : Nat) :
    (Slot.item index).suffix.toList = 'I' :: Nat.toDigits 10 index := by
  simp [Slot.suffix]

theorem suffix_injective {s t : Slot} (h : s.suffix.toList = t.suffix.toList) : s = t := by
  cases s with
  | item i =>
    cases t with
    | item j =>
      rw [toList_suffix_item, toList_suffix_item] at h
      rw [toDigits_injective (by decide) (by decide) (List.cons.inj h).2]
    | _ => simp [Slot.suffix] at h
  | _ => cases t <;> simp_all [Slot.suffix]

/-- No suffix continues the digits of an index. -/
theorem stops_suffix (s : Slot) : Stops isIndexDigit s.suffix.toList := by
  cases s with
  | sole => exact stops_nil
  | low => exact stops_cons.mpr (by decide)
  | high => exact stops_cons.mpr (by decide)
  | item index => rw [toList_suffix_item]; exact stops_cons.mpr (by decide)

theorem stops_pathText_append (path : List Nat) (s : Slot) :
    Stops isIndexDigit (pathText path ++ s.suffix.toList) := by
  cases path with
  | nil => exact stops_suffix s
  | cons index path => exact stops_cons.mpr (by decide)

/-- No suffix begins like a path: after its underscore stands no digit. -/
theorem suffix_ne_pathText (s : Slot) (index : Nat) (rest : List Char) :
    s.suffix.toList ≠ '_' :: Nat.toDigits 16 index ++ rest := by
  intro h
  obtain ⟨d, ds, hdigits⟩ := List.exists_cons_of_ne_nil (Nat.toDigits_ne_nil (n := index) (b := 16))
  have hd : isIndexDigit d = true :=
    isIndexDigit_of_mem_toDigits (by decide) (by decide) (hdigits ▸ List.mem_cons_self)
  rw [hdigits] at h
  cases s with
  | sole => simp [Slot.suffix] at h
  | low =>
    obtain rfl : 'L' = d := (List.cons.inj (List.cons.inj h).2).1
    exact absurd hd (by decide)
  | high =>
    obtain rfl : 'R' = d := (List.cons.inj (List.cons.inj h).2).1
    exact absurd hd (by decide)
  | item k =>
    rw [toList_suffix_item] at h
    exact absurd (List.cons.inj h).1 (by decide)

theorem pathText_append_inj {path path' : List Nat} {s s' : Slot}
    (h : pathText path ++ s.suffix.toList = pathText path' ++ s'.suffix.toList) :
    path = path' ∧ s = s' := by
  induction path generalizing path' with
  | nil =>
    cases path' with
    | nil => exact ⟨rfl, suffix_injective h⟩
    | cons index rest =>
      exact absurd h (by simpa [pathText] using suffix_ne_pathText s index _)
  | cons index rest ih =>
    cases path' with
    | nil => exact absurd h.symm (by simpa [pathText] using suffix_ne_pathText s' index _)
    | cons index' rest' =>
      have htail : Nat.toDigits 16 index ++ (pathText rest ++ s.suffix.toList) =
          Nat.toDigits 16 index' ++ (pathText rest' ++ s'.suffix.toList) := by
        simpa [pathText] using h
      have hdigit (n : Nat) : ∀ c ∈ Nat.toDigits 16 n, isIndexDigit c = true :=
        fun _ => isIndexDigit_of_mem_toDigits (by decide) (by decide)
      obtain ⟨hdigits, hrest⟩ := run_unique (hdigit index) (stops_pathText_append rest s)
        (hdigit index') (stops_pathText_append rest' s') htail
      obtain ⟨rfl, rfl⟩ := ih hrest
      rw [toDigits_injective (by decide) (by decide) hdigits]
      exact ⟨rfl, rfl⟩

/-- Operand placeholders below one root are told apart by path and slot. -/
theorem operand_descend_inj {ns : Namespace} {path path' : List Nat} {s s' : Slot}
    (h : (ns.descend path).operand s = (ns.descend path').operand s') : path = path' ∧ s = s' := by
  have hlist := congrArg String.toList h
  rw [toList_operand, toList_operand, token_descend, token_descend, List.append_assoc,
    List.append_assoc] at hlist
  exact pathText_append_inj (List.append_cancel_left (List.cons.inj hlist).2)

/-- Name placeholders below one root are told apart by the path. -/
theorem name_descend_inj {ns : Namespace} {path path' : List Nat}
    (h : (ns.descend path).name = (ns.descend path').name) : path = path' := by
  have hlist := congrArg String.toList h
  rw [toList_name, toList_name, token_descend, token_descend] at hlist
  have hpath : pathText path ++ Slot.sole.suffix.toList =
      pathText path' ++ Slot.sole.suffix.toList := by
    rw [List.append_cancel_left (List.cons.inj hlist).2]
  exact (pathText_append_inj hpath).1

/-- **Placeholders identify places.** Whatever the root token is, a name
    placeholder below it tells the path, and an operand placeholder tells the
    path and the slot. The placeholder without suffix is that of a sole
    operand, and no path makes another one like it. -/
theorem placeholders_identify_places (token : String) (path path' : List Nat) :
    (((root token).descend path).name = ((root token).descend path').name ↔ path = path') ∧
    (∀ slot slot',
      ((root token).descend path).operand slot = ((root token).descend path').operand slot' ↔
        path = path' ∧ slot = slot') ∧
    ∀ slot', ((root token).descend path).value = ((root token).descend path').operand slot' ↔
      path = path' ∧ slot' = .sole := by
  refine ⟨⟨name_descend_inj, ?_⟩, ?_, ?_⟩
  · intro h
    rw [h]
  · intro slot slot'
    constructor
    · intro h
      exact operand_descend_inj h
    · intro h
      rw [h.1, h.2]
  · intro slot'
    rw [← operand_sole]
    constructor
    · intro h
      obtain ⟨hpath, hslot⟩ := operand_descend_inj h
      exact ⟨hpath, hslot.symm⟩
    · intro h
      rw [h.1, h.2]

/-! ## Section 4: Well-formed tokens -/

/-- The token can follow a sigil: token characters only, and at least one. -/
structure WellFormed (ns : Namespace) : Prop where
  nonempty : ns.token.toList ≠ []
  tokenChars : ∀ c ∈ ns.token.toList, isTokenChar c = true

theorem wellFormed_root {token : String} (h : isRootToken token = true) :
    (root token).WellFormed := by
  simp only [isRootToken, ne_eq, Bool.and_eq_true, decide_eq_true_eq, List.all_eq_true] at h
  exact ⟨fun hnil => h.1 (String.toList_eq_nil_iff.mp hnil), h.2⟩

/-- Children of a well-formed namespace are well-formed. -/
theorem WellFormed.child {ns : Namespace} (h : ns.WellFormed) (index : Nat) :
    (ns.child index).WellFormed := by
  have htoken : (ns.child index).token.toList =
      ns.token.toList ++ '_' :: Nat.toDigits 16 index := by
    simp [Namespace.child]
  constructor
  · simp [htoken]
  · intro c hc
    rw [htoken] at hc
    rcases List.mem_append.mp hc with hc | hc
    · exact h.tokenChars c hc
    · rcases List.mem_cons.mp hc with rfl | hc
      · decide
      · exact isTokenChar_of_isIndexDigit (isIndexDigit_of_mem_toDigits (by decide) (by decide) hc)

theorem WellFormed.descend {ns : Namespace} (h : ns.WellFormed) (path : List Nat) :
    (ns.descend path).WellFormed := by
  induction path generalizing ns with
  | nil => exact h
  | cons index path ih => exact ih (h.child index)

theorem suffix_tokenChars (s : Slot) : ∀ c ∈ s.suffix.toList, isTokenChar c = true := by
  cases s with
  | sole => simp [Slot.suffix]
  | low =>
    have hall : Slot.low.suffix.toList.all isTokenChar = true := by decide
    exact List.all_eq_true.mp hall
  | high =>
    have hall : Slot.high.suffix.toList.all isTokenChar = true := by decide
    exact List.all_eq_true.mp hall
  | item index =>
    intro c hc
    rw [toList_suffix_item] at hc
    rcases List.mem_cons.mp hc with rfl | hc
    · decide
    · exact isTokenChar_of_isIndexDigit (isIndexDigit_of_mem_toDigits (by decide) (by decide) hc)

/-- What follows the sigil of an operand placeholder is one run. -/
theorem WellFormed.operand_tokenChars {ns : Namespace} (h : ns.WellFormed) (s : Slot) :
    ∀ c ∈ ns.token.toList ++ s.suffix.toList, isTokenChar c = true := by
  intro c hc
  rcases List.mem_append.mp hc with hc | hc
  · exact h.tokenChars c hc
  · exact suffix_tokenChars s c hc

end Namespace
end CondExpr
