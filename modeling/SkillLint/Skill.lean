import SkillLint.FileTree.Basic
import SkillLint.Header.Document
import SkillLint.Header.Parser
import SkillLint.Schema.Layout

/-!
# Skills and their documents

A `Skill` is a directory with an identifier.  Its document is read once: `extract`
reads the document as the tree stands, and a skill that was `loaded` keeps the outcome,
so later changes of the tree no longer matter to it (`extraction_loaded`).
-/

namespace SkillLint

/-- Why a document gives no header and body. -/
inductive ExtractError where
  | missing
  | unreadable (reason : ReadError)
  | split (reason : Header.SplitError)
  | parse (reason : ParseError)
  deriving Repr, DecidableEq

/-- A document with its header parsed. -/
structure Document where
  header : Mapping
  body : String
  path : Path

/-- The description, if it is a string. -/
def Document.description? (doc : Document) : Option String :=
  (doc.header.get? "description").bind Value.asString?

/-- What became of reading a document. -/
abbrev Extraction := Except ExtractError Document

/-- Reads a document. -/
def extract (tree : FileTree) (parser : HeaderParser) (path : Path) : Extraction :=
  if !tree.pathExists path then .error .missing
  else
    match tree.readText path with
    | .error reason => .error (.unreadable reason)
    | .ok content =>
      match Header.split content with
      | .error reason => .error (.split reason)
      | .ok parts =>
        match parser.parse parts.header with
        | .error reason => .error (.parse reason)
        | .ok header => .ok ⟨header, parts.body, path⟩

/-- A skill directory. -/
structure Skill where
  path : Path
  id : String
  parser : HeaderParser
  /-- What became of the document, once it was read. -/
  outcome : Option Extraction

namespace Skill

/-- A skill whose document has not been read. -/
def ofDirectory (path : Path) (id : String) (parser : HeaderParser) : Skill :=
  ⟨path, id, parser, none⟩

/-- The path of the document. -/
def documentPath (s : Skill) : Path := s.path.join Schema.skillFile

/-- The path of the directory of references. -/
def referencesPath (s : Skill) : Path := s.path.join Schema.referencesDir

/-- The directory that the skill lies in, next to its siblings. -/
def siblingsPath (s : Skill) : Path := s.path.parent?.getD s.path

/-- What became of the document: the outcome that was kept, or else that of reading it
now. -/
def extraction (tree : FileTree) (s : Skill) : Extraction :=
  match s.outcome with
  | some outcome => outcome
  | none => extract tree s.parser s.documentPath

/-- The document, if it could be read. -/
def document? (tree : FileTree) (s : Skill) : Option Document := (s.extraction tree).toOption

/-- The skill with the outcome of reading its document kept. -/
def loaded (tree : FileTree) (s : Skill) : Skill :=
  { s with outcome := some (s.extraction tree) }

/-- Once read, a document is the same in every tree. -/
theorem extraction_loaded (tree later : FileTree) (s : Skill) :
    (s.loaded tree).extraction later = s.extraction tree := rfl

end Skill

end SkillLint
