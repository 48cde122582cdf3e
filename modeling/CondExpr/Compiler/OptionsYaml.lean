import CondExpr.Compiler.OptionsText
import CondExpr.Yaml.Node.Value

/-! # Options in YAML text

  Reads options from a YAML mapping. Root tokens may be any scalars, which
  count as texts however they are written; the switch has to be a plain
  truth value. Members that are no fields are ignored. A text that says
  nothing gives the standard options.
-/

namespace CondExpr.Options

open Yaml

/-- The node that an alias means. -/
def yamlTarget? (anchored : List (Nat × Node)) : Node → Option Node
  | .alias anchor => anchored.lookup anchor
  | node => some node

/-- The text of a scalar. -/
def yamlText? (anchored : List (Nat × Node)) (node : Node) : Option String := do
  match ← yamlTarget? anchored node with
  | .scalar _ _ text => some text
  | _ => none

/-- The truth value of a scalar that is plain, or literal and tagged as a
    truth value. -/
def yamlBoolean? (anchored : List (Nat × Node)) (node : Node) : Option Bool := do
  match ← yamlTarget? anchored node with
  | .scalar p style text =>
    if style = .plain || style = .literal && p.tag = some .boolean then readBoolean? text
    else none
  | _ => none

/-- A field that is met for the first time. -/
def yamlOnce? {α : Type} (old new : Option α) : Option (Option α) :=
  if old.isSome then none else new.map some

/-- Adds a member to the fields that have been met. -/
def addYamlMember? (anchored : List (Nat × Node)) (p : Given) (member : Node × Node) :
    Option Given := do
  let key ← yamlText? anchored member.1
  let value := member.2
  if key = conditionRootField.name then
    return { p with conditionRoot := ← yamlOnce? p.conditionRoot (yamlText? anchored value) }
  else if key = filterRootField.name then
    return { p with filterRoot := ← yamlOnce? p.filterRoot (yamlText? anchored value) }
  else if key = checkCoverageField.name then
    return { p with checkCoverage := ← yamlOnce? p.checkCoverage (yamlBoolean? anchored value) }
  else return p

/-- The fields of a node. -/
def yamlFields? (node : Node) : Option Given :=
  match node with
  | .mapping _ members => members.foldlM (addYamlMember? node.anchored) {}
  | .scalar _ .plain "" => some {}
  | _ => none

/-- Reads options from a YAML text, without accepting them yet. -/
def readYaml? (text : String) : Option Options := do
  match ← Node.read? text with
  | some node => return (← yamlFields? node).options
  | none => return standard

/-- Reads options from YAML text. -/
def ofYamlText (text : String) : Except OptionsError Options :=
  match readYaml? text with
  | some o => o.accept
  | none => .error .yaml

end CondExpr.Options
