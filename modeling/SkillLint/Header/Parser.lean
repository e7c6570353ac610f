import SkillLint.Header.Restricted
import SkillLint.Text.Lowercase
import SkillLint.Yaml.Data

/-!
# Parsers of headers

The text of a header, or of a workflow record, is read by one of two parsers: the full
one reads YAML and can fail, the restricted one reads lines and never fails
(`parse_restricted_ok`).  A configuration names its parser as a `ParserChoice`.
-/

namespace SkillLint

/-- The two parsers. -/
inductive HeaderParser where
  | full
  | restricted
  deriving Repr, DecidableEq, Inhabited

/-- The choice of a parser in a configuration. -/
inductive ParserChoice where
  | auto
  | full
  | fallback
  deriving Repr, DecidableEq, Inhabited

/-- Why a header cannot be parsed. -/
inductive ParseError where
  /-- The text is malformed; `detail` is the diagnosis. -/
  | malformed (detail : String)
  /-- The text is well-formed, but its top level is of another kind than a mapping. -/
  | notAMapping (found : String)
  deriving Repr, DecidableEq

namespace ParseError

/-- The diagnosis of a malformed YAML text.  A report says that a file is malformed and
leaves the place to an editor. -/
def yamlDetail : String := "<yaml>"

/-- The wording of the failure. -/
def message : ParseError → String
  | malformed detail => detail
  | notAMapping found => "top-level value must be a mapping, found " ++ found

end ParseError

namespace ParserChoice

/-- The spelling of the choice. -/
def name : ParserChoice → String
  | auto => "auto"
  | full => "full"
  | fallback => "fallback"

/-- The choice that is spelled so, exactly. -/
def ofName? : String → Option ParserChoice
  | "auto" => some .auto
  | "full" => some .full
  | "fallback" => some .fallback
  | _ => none

/-- The choice that a name means: blanks around it and capitals do not count, and two
choices have a second name.  An unknown name is answered in its lower case form. -/
def ofLooseName (name : String) : Except String ParserChoice :=
  match Text.lowercase (Text.trim name.toList) with
  | lower =>
    match String.ofList lower with
    | "auto" => .ok .auto
    | "full" | "yaml" => .ok .full
    | "fallback" | "simple" => .ok .fallback
    | other => .error other

/-- The parser that the choice stands for. -/
def parser : ParserChoice → HeaderParser
  | auto | full => .full
  | fallback => .restricted

end ParserChoice

namespace HeaderParser

/-- The mapping that a header holds.  Null, which an empty text holds too, is the empty
mapping. -/
def parse (parser : HeaderParser) (text : String) : Except ParseError Mapping :=
  match parser with
  | restricted => .ok (Header.Restricted.parse text)
  | full =>
    match Yaml.read? text with
    | none => .error (.malformed ParseError.yamlDetail)
    | some .null => .ok .empty
    | some (.map entries) => .ok ⟨entries⟩
    | some other => .error (.notAMapping other.typeName)

/-- The restricted parser never fails. -/
theorem parse_restricted_ok (text : String) :
    HeaderParser.restricted.parse text = .ok (Header.Restricted.parse text) := rfl

end HeaderParser

end SkillLint
