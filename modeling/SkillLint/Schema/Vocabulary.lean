/-!
# Vocabularies

Some fields of headers and records take their values from a closed set of words.  A
`Vocabulary` lists the members of such a set and spells them; `parse?` finds the member
that is spelled exactly so, and `expected` lists the spellings in alphabetical order,
as messages show them.
-/

namespace SkillLint

/-- A closed set of words. -/
class Vocabulary (α : Type) where
  /-- The members, in the order of their declaration. -/
  members : List α
  /-- The spelling of a member. -/
  text : α → String

namespace Vocabulary

variable (α : Type) [Vocabulary α]

/-- The member with the spelling. -/
def parse? (word : String) : Option α := (members (α := α)).find? fun m => text m == word

/-- The word spells a member. -/
def contains (word : String) : Bool := (parse? α word).isSome

/-- The spellings in declaration order. -/
def words : List String := (members (α := α)).map text

/-- The spellings in alphabetical order. -/
def expected : String := ", ".intercalate ((words α).mergeSort fun a b => a ≤ b)

end Vocabulary

/-- The domain of knowledge of a skill. -/
inductive Domain where
  | generation
  | structuring
  | craft
  | quality
  | strategy
  | seo
  | research
  deriving Repr, DecidableEq

instance : Vocabulary Domain where
  members := [.generation, .structuring, .craft, .quality, .strategy, .seo, .research]
  text
    | .generation => "generation"
    | .structuring => "structure"
    | .craft => "craft"
    | .quality => "quality"
    | .strategy => "strategy"
    | .seo => "seo"
    | .research => "research"

/-- The scope of a skill. -/
inductive Scope where
  | implementation
  | design
  | analysis
  deriving Repr, DecidableEq

instance : Vocabulary Scope where
  members := [.implementation, .design, .analysis]
  text
    | .implementation => "implementation"
    | .design => "design"
    | .analysis => "analysis"

/-- What a skill puts out. -/
inductive OutputFormat where
  | document
  | report
  | analysis
  deriving Repr, DecidableEq

instance : Vocabulary OutputFormat where
  members := [.document, .report, .analysis]
  text
    | .document => "document"
    | .report => "report"
    | .analysis => "analysis"

/-- The phase of a workflow that a command belongs to. -/
inductive Phase where
  | capture
  | writing
  deriving Repr, DecidableEq

instance : Vocabulary Phase where
  members := [.capture, .writing]
  text
    | .capture => "capture"
    | .writing => "writing"

/-- Where a command stands in its life. -/
inductive CommandStatus where
  | existing
  | planned
  | deprecated
  deriving Repr, DecidableEq

instance : Vocabulary CommandStatus where
  members := [.existing, .planned, .deprecated]
  text
    | .existing => "existing"
    | .planned => "planned"
    | .deprecated => "deprecated"

/-- What a command may require from outside. -/
inductive Capability where
  | ticketing
  | documentation
  deriving Repr, DecidableEq

instance : Vocabulary Capability where
  members := [.ticketing, .documentation]
  text
    | .ticketing => "ticketing"
    | .documentation => "documentation"

/-- How strongly a phase depends on another. -/
inductive DependencyStrength where
  | required
  | recommended
  deriving Repr, DecidableEq

instance : Vocabulary DependencyStrength where
  members := [.required, .recommended]
  text
    | .required => "required"
    | .recommended => "recommended"

/-- The type of an input of a command. -/
inductive InputType where
  | string
  | url
  | urlList
  | stringList
  | flag
  | fileList
  deriving Repr, DecidableEq

instance : Vocabulary InputType where
  members := [.string, .url, .urlList, .stringList, .flag, .fileList]
  text
    | .string => "string"
    | .url => "url"
    | .urlList => "list[url]"
    | .stringList => "list[string]"
    | .flag => "flag"
    | .fileList => "file[]"

/-- The type of an output of a command. -/
inductive OutputType where
  | url
  | document
  | tickets
  | report
  | file
  | directory
  deriving Repr, DecidableEq

instance : Vocabulary OutputType where
  members := [.url, .document, .tickets, .report, .file, .directory]
  text
    | .url => "url"
    | .document => "document"
    | .tickets => "tickets"
    | .report => "report"
    | .file => "file"
    | .directory => "directory"

end SkillLint
