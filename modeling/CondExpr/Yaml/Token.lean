import CondExpr.Yaml.Tag.Basic

/-! # YAML tokens

  The parts that a YAML text is made of. Indentation has been turned into
  tokens too: block collections have a start and an end like flow
  collections.
-/

namespace CondExpr.Yaml

/-- How a scalar is written. -/
inductive Style where
  | plain
  | singleQuoted
  | doubleQuoted
  | literal
  | folded
  deriving DecidableEq, Repr

/-- A tag as it is written: a handle, which stands for the start of the tag,
    and the rest. A tag with the empty handle is written in full. -/
structure TagText where
  handle : String
  suffix : Tag
  deriving DecidableEq, Repr

/-- A part of a YAML text. -/
inductive Token where
  /-- `%YAML`, with a version. -/
  | version (major minor : Nat)
  /-- `%TAG`, with a handle and what it stands for. -/
  | tagHandle (handle : String) (expansion : Tag)
  /-- `---` -/
  | documentStart
  /-- `...` -/
  | documentEnd
  /-- A block sequence begins. -/
  | sequenceStart
  /-- A block mapping begins. -/
  | mappingStart
  /-- A block sequence or mapping ends. -/
  | blockEnd
  /-- `[` -/
  | flowSequenceStart
  /-- `]` -/
  | flowSequenceEnd
  /-- An opening brace. -/
  | flowMappingStart
  /-- A closing brace. -/
  | flowMappingEnd
  /-- `-`, in front of an item of a block sequence. -/
  | item
  /-- `,` -/
  | comma
  /-- A mapping key comes next, whether marked with `?` or not. -/
  | key
  /-- `:`, in front of a mapping value. -/
  | value
  /-- `*`, with the name of an anchor. -/
  | alias (name : String)
  /-- `&`, with a name. -/
  | anchor (name : String)
  /-- `!`, with the rest of a tag. -/
  | tag (written : TagText)
  /-- A scalar. -/
  | scalar (style : Style) (text : String)
  deriving DecidableEq, Repr

end CondExpr.Yaml
