import SkillLint.Path

/-!
# Words of a command line

A command line is a list of words.  A command is given by its `Grammar`: the options that
take a value, the operand, and the names of the commands below it.  Every command also
knows the switches for less and more logging, help and version, and the option for the
configuration file (`Globals`).

`read` goes through the words from the left and collects what they give.  A value is
looked at when the next option or operand comes along, or at the end, so a request for
help or for the version is answered before anything is said about a word that follows
it.  Words after a double hyphen are operands.  The name of a command ends the words of the
command above it.
-/

namespace SkillLint.CommandLine

/-- A word, by its shape. -/
inductive Word where
  /-- Two hyphens: all words that follow are operands. -/
  | escape
  /-- A long option, with the value after the equals sign. -/
  | long (name : String) (value : Option String)
  /-- Switches of one letter each. -/
  | switches (letters : List Char)
  /-- A value, an operand or a command; so is a single hyphen. -/
  | plain (text : String)
  deriving Repr, DecidableEq

/-- The shape of a word. -/
def Word.ofText (text : String) : Word :=
  match text.toList with
  | ['-', '-'] => .escape
  | '-' :: '-' :: rest =>
    match rest.span (· ≠ '=') with
    | (name, []) => .long (String.ofList name) none
    | (name, _ :: value) => .long (String.ofList name) (some (String.ofList value))
  | '-' :: c :: rest => .switches (c :: rest)
  | _ => .plain text

/-- What every command knows. -/
structure Globals where
  quiet : Bool
  verbosity : Nat
  config : Option Path
  deriving Repr, DecidableEq

/-- Nothing given. -/
def Globals.none : Globals := ⟨false, 0, Option.none⟩

/-- What was given to a command: what every command knows, and what is its own. -/
structure Given (α : Type) where
  globals : Globals
  own : α

/-- Why words are not read to their end. -/
inductive Stop where
  | usage
  | help
  | version
  deriving Repr, DecidableEq

/-- The words that a command understands.  A setter answers nothing if it refuses the
value. -/
structure Grammar (α : Type) where
  /-- The options that take a value, by their long names. -/
  options : List (String × (String → α → Option α))
  /-- The operand. -/
  operand : Option (String → α → Option α)
  /-- The commands below this one. -/
  commands : List String

/-- A value that may be given once, and only if it could be read. -/
def setOnce {β : Type} (current value : Option β) : Option (Option β) :=
  if current.isSome then none else value.map some

/-- The path that a word is; an empty word is none. -/
def pathOfWord? (word : String) : Option Path := if word = "" then none else some ⟨word⟩

/-- The words read so far. -/
structure Reading (α : Type) where
  given : Given α
  /-- The value that has not been looked at. -/
  pending : Given α → Option (Given α)

namespace Reading

variable {α : Type}

/-- Nothing read. -/
def start (own : α) : Reading α := ⟨⟨.none, own⟩, some⟩

/-- Looks at the pending value. -/
def settle (r : Reading α) : Except Stop (Reading α) :=
  match r.pending r.given with
  | some given => .ok ⟨given, some⟩
  | none => .error .usage

/-- Takes a value in, which is then pending. -/
def push (r : Reading α) (set : Given α → Option (Given α)) : Except Stop (Reading α) :=
  r.settle.map fun r => { r with pending := set }

end Reading

namespace Grammar

variable {α : Type}

/-- The setter of an option. -/
def option? (g : Grammar α) (name : String) : Option (String → Given α → Option (Given α)) :=
  if name = "config" then
    some fun value given =>
      (setOnce given.globals.config (pathOfWord? value)).map fun config =>
        { given with globals := { given.globals with config } }
  else
    (g.options.lookup name).map fun set value given =>
      (set value given.own).map fun own => { given with own }

/-- Applies a switch; the one for less logging may be given once. -/
def switch (letter : Char) (r : Reading α) : Except Stop (Reading α) := do
  let r ← r.settle
  let globals := r.given.globals
  match letter with
  | 'q' =>
    if globals.quiet then throw .usage
    return { r with given := { r.given with globals := { globals with quiet := true } } }
  | 'v' =>
    return { r with given := { r.given with globals :=
      { globals with verbosity := globals.verbosity + 1 } } }
  | 'h' => throw .help
  | 'V' => throw .version
  | _ => throw .usage

/-- The letter of a switch with a long name. -/
def switchLetter? : String → Option Char
  | "quiet" => some 'q'
  | "verbose" => some 'v'
  | "help" => some 'h'
  | "version" => some 'V'
  | _ => none

/-- Takes an operand in. -/
def takeOperand (g : Grammar α) (r : Reading α) (word : String) : Except Stop (Reading α) :=
  match g.operand with
  | none => .error .usage
  | some set => r.push fun given => (set word given.own).map fun own => { given with own }

/-- Reads words, up to the name of a command. -/
def read (g : Grammar α) : Reading α → List String → Except Stop (Reading α × List String)
  | r, [] => .ok (r, [])
  | r, word :: rest => do
    match Word.ofText word with
    | .escape => return (← rest.foldlM g.takeOperand r, [])
    | .plain text =>
      if g.commands.contains text then return (r, text :: rest)
      g.read (← g.takeOperand r text) rest
    | .switches letters => g.read (← letters.foldlM (fun r letter => switch letter r) r) rest
    | .long name value =>
      match g.option? name, value with
      | some set, some value => g.read (← (← r.push (set value)).settle) rest
      | some set, none =>
        match rest with
        | next :: rest =>
          match Word.ofText next with
          | .plain value => g.read (← r.push (set value)) rest
          | _ => throw .usage
        | [] => throw .usage
      | none, some _ => throw .usage
      | none, none =>
        match switchLetter? name with
        | some letter => g.read (← switch letter r) rest
        | none => throw .usage

end Grammar

end SkillLint.CommandLine
