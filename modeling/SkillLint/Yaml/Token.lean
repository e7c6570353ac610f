/-!
# YAML tokens

The pieces that a YAML stream is made of.  Block structure shows in a stream only as
indentation; among the tokens it is explicit, as starts and ends of blocks.
-/

namespace SkillLint.Yaml

/-- A piece of a YAML stream. -/
inductive Token where
  /-- The version of a version directive. -/
  | version (major minor : Nat)
  /-- A tag directive: the handle stands for the bytes. -/
  | tagHandle (handle : List Char) (bytes : List UInt8)
  /-- Three hyphens at the start of a line. -/
  | documentStart
  /-- Three dots at the start of a line. -/
  | documentEnd
  | blockSequenceStart
  | blockMappingStart
  | blockEnd
  | flowSequenceStart
  | flowSequenceEnd
  | flowMappingStart
  | flowMappingEnd
  /-- The hyphen before an item of a block sequence. -/
  | blockEntry
  /-- The comma between the entries of a flow collection. -/
  | flowEntry
  /-- A key follows. -/
  | key
  /-- A value follows. -/
  | value
  | aliasOf (name : List Char)
  | anchor (name : List Char)
  /-- A tag, as its handle and what follows the handle. -/
  | tag (handle : List Char) (suffix : List UInt8)
  /-- The text of a scalar, and whether it was written without quotes or block
  indicator. -/
  | scalar (plain : Bool) (text : List Char)
  deriving Repr, DecidableEq

end SkillLint.Yaml
