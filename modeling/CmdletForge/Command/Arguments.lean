import CmdletForge.Files.Path

/-!
# CmdletForge.Command.Arguments

The arguments of the program.

1. Options stand behind two dashes by their names, or behind one dash by their letters; several
   letters may share one dash.  A value is the next argument, or it follows directly or behind
   an equals sign.
2. The name of a command comes first, with the general options in front of it and its own ones
   behind it.  No option is given twice in one place, and a path is never empty.
3. Asking for help or for the version ends the reading, when no fault came before.
-/

namespace CmdletForge.Command

/-! ## Options -/

/-- An option. -/
inductive OptionName where
  | help
  | version
  | verbose
  | folder
  | filter
  | model
  | output
  deriving DecidableEq, Repr

namespace OptionName

/-- The name of an option behind two dashes. -/
def name : OptionName → String
  | .help => "help"
  | .version => "version"
  | .verbose => "verbose"
  | .folder => "config-dir"
  | .filter => "filter"
  | .model => "model"
  | .output => "output"

/-- The letter of an option behind one dash. -/
def letter : OptionName → Char
  | .help => 'h'
  | .version => 'V'
  | .verbose => 'v'
  | .folder => 'c'
  | .filter => 'f'
  | .model => 'm'
  | .output => 'o'

/-- Whether an option has a value. -/
def hasValue : OptionName → Bool
  | .help | .version | .verbose => false
  | _ => true

/-- Whether the value of an option may be empty. -/
def mayBeEmpty : OptionName → Bool
  | .filter => true
  | o => !o.hasValue

end OptionName

/-- Why the reading of arguments ends early. -/
inductive Stop where
  | fault
  | help
  | version
  deriving DecidableEq, Repr

/-- The options that were given, with their values. -/
abbrev Given := List (OptionName × String)

/-- Takes an option with its value. -/
def Given.add (g : Given) (o : OptionName) (value : String) : Except Stop Given :=
  match o with
  | .help => .error .help
  | .version => .error .version
  | o =>
    if (g.lookup o).isSome then .error .fault
    else if value.isEmpty ∧ !o.mayBeEmpty then .error .fault
    else .ok (g ++ [(o, value)])

/-! ## Reading options -/

/-- What an argument may be. -/
inductive Form where
  /-- Two dashes alone. -/
  | dashes
  /-- The name of an option, with a value behind an equals sign. -/
  | named (name : String) (value : Option String)
  /-- The letters of options. -/
  | letters (cs : List Char)
  | word
  deriving DecidableEq, Repr

def formOf (argument : String) : Form :=
  match argument.toList with
  | ['-', '-'] => .dashes
  | '-' :: '-' :: cs =>
    let name := String.ofList (cs.takeWhile (· ≠ '='))
    match cs.dropWhile (· ≠ '=') with
    | _ :: value => .named name (some (String.ofList value))
    | [] => .named name none
  | '-' :: c :: cs => .letters (c :: cs)
  | _ => .word

/-- The options that were given, and one that waits for its value. -/
abbrev Progress := Given × Option OptionName

/-- Reads letters behind one dash. -/
def readLetters (known : List OptionName) (g : Given) : List Char → Except Stop Progress
  | [] => .ok (g, none)
  | c :: cs =>
    match known.find? (·.letter = c) with
    | none => .error .fault
    | some o =>
      if o.hasValue then
        match cs with
        | [] => .ok (g, some o)
        | '=' :: value => (g.add o (String.ofList value)).map (·, none)
        | value => (g.add o (String.ofList value)).map (·, none)
      else
        match g.add o "" with
        | .error stop => .error stop
        | .ok g => readLetters known g cs

def readNamed (known : List OptionName) (g : Given) (name : String) (value : Option String) :
    Except Stop Progress :=
  match known.find? (·.name = name), value with
  | none, _ => .error .fault
  | some o, none => if o.hasValue then .ok (g, some o) else (g.add o "").map (·, none)
  | some o, some value =>
    if o.hasValue then (g.add o value).map (·, none) else .error .fault

/-- Reads options up to the first word that is no value: the options, that word and what follows
it.  Nothing may follow two dashes alone. -/
def readOptions (known : List OptionName) :
    Progress → List String → Except Stop (Given × Option (String × List String))
  | (g, none), [] => .ok (g, none)
  | (_, some _), [] => .error .fault
  | (g, waiting), argument :: rest =>
    match formOf argument, waiting with
    | .word, some o =>
      match g.add o argument with
      | .error stop => .error stop
      | .ok g => readOptions known (g, none) rest
    | .word, none => .ok (g, some (argument, rest))
    | _, some _ => .error .fault
    | .dashes, none => if rest.isEmpty then .ok (g, none) else .error .fault
    | .named name value, none =>
      match readNamed known g name value with
      | .error stop => .error stop
      | .ok p => readOptions known p rest
    | .letters cs, none =>
      match readLetters known g cs with
      | .error stop => .error stop
      | .ok p => readOptions known p rest

/-! ## Commands -/

/-- What the program is asked to do. -/
inductive Subcommand where
  /-- Summarise the display rules, and how the types of a service are shown. -/
  | showRules (folder : Path) (filter : Option String) (model : Option Path)
  /-- Write the format document of a service. -/
  | generateFormats (folder model : Path) (filter : Option String) (output : Option Path)
  /-- Write the cmdlets of a service. -/
  | generateCmdlets (model output : Path)
  deriving DecidableEq, Repr

/-- A command, and whether everything that is done is said. -/
structure Request where
  command : Subcommand
  verbose : Bool
  deriving DecidableEq, Repr

/-- The folder for the output when none is given. -/
def defaultOutput : Path := "./output"

/-- The options that may stand in front of a command. -/
def generalOptions : List OptionName := [.help, .version, .verbose]

/-- The options of a command, and how they make it. -/
structure Grammar where
  options : List OptionName
  make : Given → Option Subcommand

/-- The grammar of the command of a name. -/
def grammar? (name : String) : Option Grammar :=
  match name with
  | "show-config" => some {
      options := [.help, .verbose, .folder, .filter, .model]
      make := fun g => do
        return .showRules (← g.lookup .folder) (g.lookup .filter) (g.lookup .model) }
  | "generate-formats" => some {
      options := [.help, .verbose, .folder, .model, .filter, .output]
      make := fun g => do
        return .generateFormats (← g.lookup .folder) (← g.lookup .model) (g.lookup .filter)
          (g.lookup .output) }
  | "generate-cmdlets" => some {
      options := [.help, .verbose, .model, .output]
      make := fun g => do
        return .generateCmdlets (← g.lookup .model) ((g.lookup .output).getD defaultOutput) }
  | _ => none

/-- Whether words ask for help, behind the word that does. -/
def asksForHelp (words : List String) : Bool :=
  match words with
  | [] => true
  | [name] => name = "help" || (grammar? name).isSome
  | _ => false

def Request.ofArguments (arguments : List String) : Except Stop Request := do
  let (general, rest) ← readOptions generalOptions ([], none) arguments
  match rest with
  | none => throw .fault
  | some ("help", words) => throw (if asksForHelp words then .help else .fault)
  | some (name, rest) =>
    match grammar? name with
    | none => throw .fault
    | some grammar =>
      let (given, extra) ← readOptions grammar.options ([], none) rest
      if extra.isSome then throw .fault
      match grammar.make given with
      | none => throw .fault
      | some command =>
        let isVerbose (g : Given) : Bool := (g.lookup .verbose).isSome
        return ⟨command, isVerbose general || isVerbose given⟩

/-- What the program says about its version. -/
def versionText : String := "pscmdlet-generator 0.1.0\n"

/-- What the program says about its use. -/
def usageText : String :=
  "Usage: pscmdlet-generator [--verbose] COMMAND\n\n" ++
    "Commands:\n" ++
    "  show-config       --config-dir FOLDER [--filter NAME] [--model FILE]\n" ++
    "  generate-formats  --config-dir FOLDER --model FILE [--filter NAME] [--output FILE]\n" ++
    "  generate-cmdlets  --model FILE [--output FOLDER]\n"

end CmdletForge.Command
