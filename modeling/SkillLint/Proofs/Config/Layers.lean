import SkillLint.CommandLine.Execute
import SkillLint.FileTree.Build
import SkillLint.Proofs.FileTree.Names
import SkillLint.Proofs.Text.Numeral

/-!
# The layers of a configuration

A configuration comes about field by field.  The variable of the environment has the first say
about a field, if the field has one and it is set; then the file that is consulted, if it gives
the field; and then the default (`Chosen`, `Layered`).

**Loading succeeds exactly if every layer can be read and the result is valid**
(`load_eq_ok_iff`).  The file has to be there if it was named, and to hold a patch (`Consulted`);
the variables have to be readable, and the least number of body lines must not exceed the greatest
(`Acceptable`).  Whether it does is asked of the result, so a layer alone may turn the two around.
-/

namespace SkillLint.Config

open SkillLint.Text

variable {tree : FileTree} {env : Environment} {explicit : Option Path} {root : Path}
  {file : Patch} {config : Config}

/-! ## The file -/

/-- The file that the caller names, else the one that the environment names. -/
def namedFile? (env : Environment) (explicit : Option Path) : Option Path :=
  explicit.or ((env.lookup fileVariable).map Path.mk)

/-- The file that is consulted: the one that is named, else that of the project, if there is
one. -/
def consultedFile? (tree : FileTree) (env : Environment) (explicit : Option Path) (root : Path) :
    Option Path :=
  (namedFile? env explicit).or
    (if tree.pathExists (root.join fileName) then some (root.join fileName) else none)

/-- The path leads to a text that is a document, and the settings of the document are those of
the patch. -/
def FileGives (tree : FileTree) (p : Path) (patch : Patch) : Prop :=
  ∃ text document, tree.readText p = .ok text ∧ Toml.parse? text.toList = some document ∧
    Patch.read? .toml document.toSetting = some patch

/-- **The patch of the file that is consulted.**  A file that is named has to exist. -/
structure Consulted (tree : FileTree) (env : Environment) (explicit : Option Path) (root : Path)
    (file : Patch) : Prop where
  named : ∀ p ∈ namedFile? env explicit, tree.pathExists p = true
  given : ∀ p ∈ consultedFile? tree env explicit root, FileGives tree p file
  nothing : consultedFile? tree env explicit root = none → file = .empty

theorem file?_eq_ok_iff {consulted : Option Path} :
    file? tree env explicit root = .ok consulted ↔
      (∀ p ∈ namedFile? env explicit, tree.pathExists p = true) ∧
        consulted = consultedFile? tree env explicit root := by
  rw [file?, consultedFile?, ← namedFile?]
  cases namedFile? env explicit with
  | none =>
    rw [Option.none_or]
    exact ⟨fun h => ⟨nofun, (Except.ok.inj h).symm⟩, fun h => congrArg Except.ok h.2.symm⟩
  | some p =>
    dsimp only
    rw [Option.some_or]
    split
    · rename_i hexists
      refine ⟨fun h => ⟨?_, (Except.ok.inj h).symm⟩, fun h => congrArg Except.ok h.2.symm⟩
      intro q hq
      obtain rfl := Option.mem_some_iff.mp hq
      exact hexists
    · rename_i hmissing
      exact ⟨fun h => (nomatch h), fun h => absurd (h.1 p rfl) hmissing⟩

theorem readFile_eq_ok_iff {p : Path} : readFile tree p = .ok file ↔ FileGives tree p file := by
  rw [readFile, FileGives]
  cases tree.readText p with
  | error reason => simp
  | ok text =>
    cases hparse : Toml.parse? text.toList with
    | none => simp [hparse]
    | some document => cases hread : Patch.read? .toml document.toSetting <;> simp [hparse, hread]

/-! ## The environment -/

/-- The word is a name of the choice, but for blanks around it and capitals. -/
def NamesParser (word : String) (choice : ParserChoice) : Prop :=
  (String.ofList (lowercase (trim word.toList)), choice) ∈
    [("auto", ParserChoice.auto), ("full", .full), ("yaml", .full), ("fallback", .fallback),
      ("simple", .fallback)]

/-- The word is a numeral for a limit, but for blanks around it.  Limits are numbers of sixty-four
bits. -/
def WritesLimit (word : String) (limit : Nat) : Prop :=
  Writes (trim word.toList) limit ∧ limit < Nat.pow 2 64

/-- What a variable says: nothing if it is not set, else what its word means. -/
def Says {α : Type} (means : String → α → Prop) : Option String → Option α → Prop
  | none, said => said = none
  | some word, said => ∃ value, means word value ∧ said = some value

theorem parserOfName_eq_ok_iff {word : String} {choice : ParserChoice} :
    parserOfName word = .ok choice ↔ NamesParser word choice := by
  simp only [parserOfName, ParserChoice.ofLooseName, NamesParser]
  generalize String.ofList (lowercase (trim word.toList)) = name
  split
  · rename_i found h
    split at h
    all_goals first
      | (obtain rfl := Except.ok.inj h; simp_all [eq_comm])
      | cases h
  · rename_i other h
    split at h <;> simp_all

theorem readParser_eq_ok_iff {said : Option ParserChoice} :
    readParser env = .ok said ↔ Says NamesParser (env.lookup parserVariable) said := by
  rw [readParser]
  cases env.lookup parserVariable with
  | none => exact ⟨fun h => (Except.ok.inj h).symm, fun h => congrArg Except.ok (Eq.symm h)⟩
  | some word =>
    refine map_eq_ok_iff.trans (exists_congr fun choice => ?_)
    rw [parserOfName_eq_ok_iff, eq_comm]

theorem readNumber_eq_ok_iff {key : String} {said : Option Nat} :
    readNumber env key = .ok said ↔ Says WritesLimit (env.lookup key) said := by
  rw [readNumber]
  cases env.lookup key with
  | none => exact ⟨fun h => (Except.ok.inj h).symm, fun h => congrArg Except.ok (Eq.symm h)⟩
  | some word =>
    simp only [Says, WritesLimit, ← readUnsigned_eq_ok_iff]
    cases readUnsigned (trim word.toList) with
    | error reason => simp
    | ok limit => simp [eq_comm]

/-- The environment can be read exactly if each of its variables can. -/
theorem readEnvironment_eq_ok_iff {said : Patch} :
    readEnvironment env = .ok said ↔
      ∃ parser least most, Says NamesParser (env.lookup parserVariable) parser ∧
        Says WritesLimit (env.lookup minLinesVariable) least ∧
        Says WritesLimit (env.lookup maxLinesVariable) most ∧
        said = { Patch.empty with
          skillsDir := env.lookup skillsDirVariable
          commandsDir := env.lookup commandsDirVariable
          parser := parser, minBodyLines := least, maxBodyLines := most } := by
  simp only [readEnvironment, bind_eq_ok_iff, readParser_eq_ok_iff, readNumber_eq_ok_iff]
  constructor
  · rintro ⟨parser, hparser, least, hleast, most, hmost, h⟩
    exact ⟨parser, least, most, hparser, hleast, hmost, (Except.ok.inj h).symm⟩
  · rintro ⟨parser, least, most, hparser, hleast, hmost, rfl⟩
    exact ⟨parser, hparser, least, hleast, most, hmost, rfl⟩

/-! ## The layers of a field -/

/-- **The value of a field**: what its variable means, if it is set; else what the file gives;
else the default. -/
def Chosen {α : Type} (means : String → α → Prop) (word? : Option String) (given : Option α)
    (fallback value : α) : Prop :=
  match word? with
  | some word => means word value
  | none => value = given.getD fallback

/-- A value is chosen if it is what is left after the variable and the file had their say. -/
theorem chosen_iff {α : Type} {means : String → α → Prop} {word? : Option String}
    {given : Option α} {fallback value : α} :
    Chosen means word? given fallback value ↔
      ∃ said, Says means word? said ∧ value = (said.or given).getD fallback := by
  cases word? with
  | none => simp [Chosen, Says]
  | some word =>
    constructor
    · exact fun h => ⟨some value, ⟨value, h, rfl⟩, rfl⟩
    · rintro ⟨_, ⟨read, hread, rfl⟩, rfl⟩
      exact hread

/-- **The configuration that the layers make.**  Three of the fields have no variable. -/
structure Layered (env : Environment) (file : Patch) (config : Config) : Prop where
  skillsDir : Chosen Eq (env.lookup skillsDirVariable) file.skillsDir
    ProjectPaths.default.skillsDir config.paths.skillsDir
  commandsDir : Chosen Eq (env.lookup commandsDirVariable) file.commandsDir
    ProjectPaths.default.commandsDir config.paths.commandsDir
  manifest : config.paths.manifest = file.manifest.getD ProjectPaths.default.manifest
  parser : Chosen NamesParser (env.lookup parserVariable) file.parser .auto config.parser
  minBodyLines : Chosen WritesLimit (env.lookup minLinesVariable) file.minBodyLines
    Limits.default.minBodyLines config.limits.minBodyLines
  maxBodyLines : Chosen WritesLimit (env.lookup maxLinesVariable) file.maxBodyLines
    Limits.default.maxBodyLines config.limits.maxBodyLines
  maxDescriptionChars : config.limits.maxDescriptionChars =
    file.maxDescriptionChars.getD Limits.default.maxDescriptionChars
  markerScanLines : config.limits.markerScanLines =
    file.markerScanLines.getD Limits.default.markerScanLines

theorem chosen_eq_iff {word? given : Option String} {fallback value : String} :
    Chosen Eq word? given fallback value ↔ value = (word?.or given).getD fallback := by
  cases word? with
  | none => exact Iff.rfl
  | some word => exact eq_comm

/-- The environment laid over the file gives the configuration that the layers make. -/
theorem toConfig_or_iff :
    (∃ said, readEnvironment env = .ok said ∧ (said.or file).toConfig = config) ↔
      Layered env file config := by
  constructor
  · rintro ⟨said, hsaid, rfl⟩
    obtain ⟨parser, least, most, hparser, hleast, hmost, rfl⟩ := readEnvironment_eq_ok_iff.mp hsaid
    exact ⟨chosen_eq_iff.mpr rfl, chosen_eq_iff.mpr rfl, rfl, chosen_iff.mpr ⟨parser, hparser, rfl⟩,
      chosen_iff.mpr ⟨least, hleast, rfl⟩, chosen_iff.mpr ⟨most, hmost, rfl⟩, rfl, rfl⟩
  · rintro ⟨hskills, hcommands, hmanifest, hparser, hleast, hmost, hdescription, hmarkers⟩
    obtain ⟨parser, hparser, hparserValue⟩ := chosen_iff.mp hparser
    obtain ⟨least, hleast, hleastValue⟩ := chosen_iff.mp hleast
    obtain ⟨most, hmost, hmostValue⟩ := chosen_iff.mp hmost
    refine ⟨_, readEnvironment_eq_ok_iff.mpr ⟨parser, least, most, hparser, hleast, hmost, rfl⟩, ?_⟩
    obtain ⟨⟨skills, commands, manifest⟩, choice, ⟨min, max, description, markers⟩⟩ := config
    simp only [chosen_eq_iff] at hskills hcommands
    simp_all [Patch.or, Patch.toConfig, Patch.toPaths, Patch.toLimits, Patch.empty]

/-! ## Loading -/

/-- The result has room between the least and the greatest number of body lines. -/
theorem validate_eq_ok_iff {result : Config} : config.validate = .ok result ↔
    config = result ∧ config.limits.minBodyLines ≤ config.limits.maxBodyLines := by
  rw [validate, valid]
  split
  · rename_i hvalid
    exact ⟨fun h => ⟨Except.ok.inj h, of_decide_eq_true hvalid⟩, fun h => congrArg Except.ok h.1⟩
  · rename_i hinvalid
    exact ⟨fun h => (nomatch h), fun h => absurd (decide_eq_true h.2) hinvalid⟩

/-- What is made of the patch of a file. -/
theorem validate_toConfig_or_iff :
    (do let said ← readEnvironment env
        (said.or file).toConfig.validate : Except RunError Config) = .ok config ↔
      Layered env file config ∧ config.limits.minBodyLines ≤ config.limits.maxBodyLines := by
  simp only [bind_eq_ok_iff, validate_eq_ok_iff]
  constructor
  · rintro ⟨said, hsaid, rfl, hwindow⟩
    exact ⟨toConfig_or_iff.mp ⟨said, hsaid, rfl⟩, hwindow⟩
  · rintro ⟨hlayered, hwindow⟩
    obtain ⟨said, hsaid, rfl⟩ := toConfig_or_iff.mpr hlayered
    exact ⟨said, hsaid, rfl, hwindow⟩

/-- **What is loaded** is the configuration that the layers make, if it is valid. -/
theorem load_eq_ok_iff : load tree env explicit root = .ok config ↔
    ∃ file, Consulted tree env explicit root file ∧ Layered env file config ∧
      config.limits.minBodyLines ≤ config.limits.maxBodyLines := by
  rw [load, bind_eq_ok_iff]
  constructor
  · rintro ⟨consulted, hfile, h⟩
    obtain ⟨hnamed, rfl⟩ := file?_eq_ok_iff.mp hfile
    cases hconsulted : consultedFile? tree env explicit root with
    | some p =>
      rw [hconsulted] at h
      obtain ⟨file, hread, hlayers⟩ := bind_eq_ok_iff.mp h
      refine ⟨file, ⟨hnamed, ?_, ?_⟩, validate_toConfig_or_iff.mp hlayers⟩
      · intro q hq
        obtain rfl := Option.mem_unique hconsulted hq
        exact readFile_eq_ok_iff.mp hread
      · intro hnone
        rw [hconsulted] at hnone
        cases hnone
    | none =>
      rw [hconsulted] at h
      refine ⟨.empty, ⟨hnamed, ?_, fun _ => rfl⟩, validate_toConfig_or_iff.mp h⟩
      rw [hconsulted]
      exact nofun
  · rintro ⟨file, hfile, hlayers⟩
    refine ⟨_, file?_eq_ok_iff.mpr ⟨hfile.named, rfl⟩, ?_⟩
    cases hconsulted : consultedFile? tree env explicit root with
    | some p =>
      exact bind_eq_ok_iff.mpr ⟨file, readFile_eq_ok_iff.mpr (hfile.given p hconsulted),
        validate_toConfig_or_iff.mpr hlayers⟩
    | none =>
      obtain rfl := hfile.nothing hconsulted
      exact validate_toConfig_or_iff.mpr hlayers

/-- **What is asked of the layers**, besides a file that can be read: that the variables mean
something, and that the least number of body lines that they lead to does not exceed the
greatest. -/
structure Acceptable (env : Environment) (file : Patch) : Prop where
  parser : ∀ word ∈ env.lookup parserVariable, ∃ choice, NamesParser word choice
  limits : ∀ key ∈ [minLinesVariable, maxLinesVariable], ∀ word ∈ env.lookup key,
    ∃ limit, WritesLimit word limit
  window : ∀ least most,
    Chosen WritesLimit (env.lookup minLinesVariable) file.minBodyLines
      Limits.default.minBodyLines least →
    Chosen WritesLimit (env.lookup maxLinesVariable) file.maxBodyLines
      Limits.default.maxBodyLines most → least ≤ most

/-- A value is chosen as soon as the variable means something. -/
theorem exists_chosen_iff {α : Type} {means : String → α → Prop} {word? : Option String}
    {given : Option α} {fallback : α} :
    (∃ value, Chosen means word? given fallback value) ↔
      ∀ word ∈ word?, ∃ value, means word value := by
  cases word? with
  | none => exact ⟨fun _ => nofun, fun _ => ⟨_, rfl⟩⟩
  | some word => exact ⟨fun h _ hword => Option.mem_some_iff.mp hword ▸ h, fun h => h word rfl⟩

/-- The layers choose one limit only. -/
theorem Chosen.limit_unique {word? : Option String} {given : Option Nat} {fallback m n : Nat}
    (hm : Chosen WritesLimit word? given fallback m)
    (hn : Chosen WritesLimit word? given fallback n) : m = n := by
  cases word? with
  | none => exact Eq.trans hm (Eq.symm hn)
  | some word =>
    have hm := readUnsigned_eq_ok_iff.mpr hm
    have hn := readUnsigned_eq_ok_iff.mpr hn
    exact Except.ok.inj (hm.symm.trans hn)

/-- The layers make a valid configuration exactly if they are acceptable. -/
theorem acceptable_iff : Acceptable env file ↔ ∃ config, Layered env file config ∧
    config.limits.minBodyLines ≤ config.limits.maxBodyLines := by
  constructor
  · rintro ⟨hparser, hlimits, hwindow⟩
    obtain ⟨choice, hchoice⟩ := exists_chosen_iff.mpr hparser
    obtain ⟨least, hleast⟩ := exists_chosen_iff.mpr (hlimits minLinesVariable (by decide))
    obtain ⟨most, hmost⟩ := exists_chosen_iff.mpr (hlimits maxLinesVariable (by decide))
    exact ⟨⟨⟨_, _, _⟩, choice, ⟨least, most, _, _⟩⟩,
      ⟨chosen_eq_iff.mpr rfl, chosen_eq_iff.mpr rfl, rfl, hchoice, hleast, hmost, rfl, rfl⟩,
      hwindow least most hleast hmost⟩
  · rintro ⟨config, hlayered, hwindow⟩
    refine ⟨exists_chosen_iff.mp ⟨_, hlayered.parser⟩, ?_, ?_⟩
    · intro key hkey
      simp only [List.mem_cons, List.not_mem_nil, or_false] at hkey
      rcases hkey with rfl | rfl
      · exact exists_chosen_iff.mp ⟨_, hlayered.minBodyLines⟩
      · exact exists_chosen_iff.mp ⟨_, hlayered.maxBodyLines⟩
    · intro least most hleast hmost
      rwa [hleast.limit_unique hlayered.minBodyLines, hmost.limit_unique hlayered.maxBodyLines]

/-- **A configuration is loaded exactly if** the file that is consulted can be read and the layers
are acceptable, and each of its fields then has the value that the layers choose.  A run that is
asked for on the command line follows the configuration in everything but the directory of skills
and the parser, and in these unless there is a flag. -/
theorem load_layers (tree : FileTree) (env : Environment) (explicit : Option Path) (root : Path) :
    ((∃ config, load tree env explicit root = .ok config) ↔
      ∃ file, Consulted tree env explicit root file ∧ Acceptable env file) ∧
    ∀ config, load tree env explicit root = .ok config →
      (∃ file, Consulted tree env explicit root file ∧ Layered env file config) ∧
      ∀ options : CommandLine.ValidateOptions,
        (options.run root config).limits = config.limits ∧
        (options.run root config).paths.commandsDir = config.paths.commandsDir ∧
        (options.run root config).paths.manifest = config.paths.manifest ∧
        (options.run root config).paths.skillsDir =
          (options.skillsDir.map Path.text).getD config.paths.skillsDir ∧
        (options.run root config).parser = (options.parser.getD config.parser).parser := by
  refine ⟨⟨?loaded, ?acceptable⟩, fun config hload => ⟨?layered, fun options => ?options⟩⟩
  case loaded =>
    rintro ⟨config, hload⟩
    obtain ⟨file, hfile, hlayers⟩ := load_eq_ok_iff.mp hload
    exact ⟨file, hfile, acceptable_iff.mpr ⟨config, hlayers⟩⟩
  case acceptable =>
    rintro ⟨file, hfile, hacceptable⟩
    obtain ⟨config, hlayers⟩ := acceptable_iff.mp hacceptable
    exact ⟨config, load_eq_ok_iff.mpr ⟨file, hfile, hlayers⟩⟩
  case layered =>
    obtain ⟨file, hfile, hlayered, -⟩ := load_eq_ok_iff.mp hload
    exact ⟨file, hfile, hlayered⟩
  case options => exact ⟨rfl, rfl, rfl, rfl, rfl⟩

/-- A project whose file asks for more body lines than there may be, unless configured. -/
def demandingTree : FileTree :=
  (FileTree.empty []).writeFile ⟨"skillcheck.toml"⟩
    "[limits]\nmin_body_lines = 120\n[paths]\nskills_dir = 'units'".toUTF8

/-- An environment that makes room for them. -/
def roomyEnvironment : Environment :=
  [("SKILLCHECK_MAX_LINES", " +0150"), ("SKILLCHECK_PARSER", "Simple "),
    ("SKILLCHECK_COMMANDS_DIR", "")]

/-- What is loaded from both. -/
def demandingConfig : Config :=
  ⟨⟨"units", "", "commands/workflow-manifest.yaml"⟩, .fallback, ⟨120, 150, 1024, 10⟩⟩

theorem load_layers_demandingTree :
    load demandingTree roomyEnvironment none ⟨"."⟩ = .ok demandingConfig ∧
      (∃ file, Consulted demandingTree roomyEnvironment none ⟨"."⟩ file ∧
        Acceptable roomyEnvironment file) ∧
      ∃ file, Consulted demandingTree roomyEnvironment none ⟨"."⟩ file ∧
        Layered roomyEnvironment file demandingConfig := by
  have hload : load demandingTree roomyEnvironment none ⟨"."⟩ = .ok demandingConfig :=
    toOption_eq_some_iff.mp (by decide +kernel)
  obtain ⟨hloaded, hlayers⟩ := load_layers demandingTree roomyEnvironment none ⟨"."⟩
  exact ⟨hload, hloaded.mp ⟨demandingConfig, hload⟩, (hlayers demandingConfig hload).1⟩

end SkillLint.Config
