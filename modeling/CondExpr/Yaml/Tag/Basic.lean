/-! # Tags

  What a tag says about its node. Tags are bytes and not characters, since
  percent escapes can give them bytes that are no text. A zero byte ends a
  tag.
-/

namespace CondExpr.Yaml

/-! ## Section 1: Bytes -/

/-- A tag, or a part of one, with the bytes up to its end. -/
structure Tag where
  bytes : List UInt8
  deriving DecidableEq, Repr

namespace Tag

/-- The tag of some bytes. What comes after a zero byte is not part of it. -/
def ofBytes (bytes : List UInt8) : Tag := ⟨bytes.takeWhile (· ≠ 0)⟩

/-- The tag of a text. -/
def ofText (text : String) : Tag := ofBytes (text.toList.flatMap String.utf8EncodeChar)

/-- A tag that continues with another. -/
def append (start rest : Tag) : Tag := ⟨start.bytes ++ rest.bytes⟩

instance : Append Tag := ⟨append⟩

/-- The tag has no bytes. -/
def isEmpty (tag : Tag) : Bool := tag.bytes.isEmpty

/-- The tag begins with an exclamation mark, so it has a meaning only where
    it is used. -/
def isLocal (tag : Tag) : Bool := tag.bytes.head? = some 0x21

/-- The name of a local tag, which comes after its exclamation mark. Bytes
    that are no text are no name. -/
def localName? (tag : Tag) : Option String :=
  if tag.isLocal then String.fromUTF8? tag.bytes.tail.toByteArray else none

/-! ## Section 2: Core tags -/

/-- What the handle with two exclamation marks stands for. -/
abbrev coreStart : String := "tag:yaml.org,2002:"

/-- The tag of null. -/
def null : Tag := ofText (coreStart ++ "null")

/-- The tag of truth values. -/
def boolean : Tag := ofText (coreStart ++ "bool")

/-- The tag of integers. -/
def integer : Tag := ofText (coreStart ++ "int")

/-- The tag of floating point numbers. -/
def float : Tag := ofText (coreStart ++ "float")

end Tag
end CondExpr.Yaml
