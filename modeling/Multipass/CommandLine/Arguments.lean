/-!
# Arguments of the command line

The arguments name a command, its operands and its options. An option is written with two
hyphens; its value follows it, or stands behind an equals sign. The configuration can be
given before the command or after it. After two hyphens alone there are operands only.
-/

namespace Multipass.CommandLine

/-- What the tool is asked to do, with the files and the options of it. -/
inductive Command where
  | check (document : String) (asJson : Bool)
  | preprocess (file : String) (withLineMap : Bool)
  | assemble (document : String) (pass : String)
  | config
  deriving DecidableEq, Repr

/-- A command, and the file with the configuration if one was given. -/
structure Invocation where
  command : Command
  configFile : Option String
  deriving DecidableEq, Repr

/-- The file that a command works on, if it works on one. -/
def Command.file? : Command → Option String
  | check document _ | assemble document _ => some document
  | preprocess file _ => some file
  | config => none

/-- The files that an invocation may read. -/
def Invocation.files (invocation : Invocation) : List String :=
  invocation.configFile.toList ++ invocation.command.file?.toList

/-- Why arguments make no sense. -/
inductive UsageProblem where
  | missingCommand
  | unknownCommand (name : String)
  | unknownOption (name : String)
  | repeatedOption (name : String)
  | missingValue (name : String)
  | unexpectedValue (name : String)
  | missingOperand (command : String)
  | unexpectedOperand (text : String)
  deriving DecidableEq, Repr

/-- What the user is told about an invocation that cannot be read. -/
def UsageProblem.message : UsageProblem → String
  | missingCommand => "no command was given"
  | unknownCommand name => s!"there is no command '{name}'"
  | unknownOption name => s!"there is no option '{name}' here"
  | repeatedOption name => s!"the option '{name}' was given more than once"
  | missingValue name => s!"the option '{name}' needs a value"
  | unexpectedValue name => s!"the option '{name}' takes no value"
  | missingOperand command => s!"the command '{command}' needs a file"
  | unexpectedOperand text => s!"there is no place for '{text}'"

/-- An argument on its own. -/
inductive Argument where
  | operand (text : String)
  | option (name : String) (value : Option String)
  | separator
  deriving DecidableEq, Repr

/-- A single hyphen is an operand. -/
def Argument.ofText (text : String) : Argument :=
  match text.toList with
  | ['-'] => operand text
  | ['-', '-'] => separator
  | '-' :: '-' :: rest =>
    let name := String.ofList ('-' :: '-' :: rest.takeWhile (· != '='))
    match rest.dropWhile (· != '=') with
    | [] => option name none
    | _ :: value => option name (some (String.ofList value))
  | '-' :: _ => option text none
  | _ => operand text

/-- What can be given in a place: options that stand alone, options with a value, and a
    number of operands. -/
structure Form where
  flags : List String
  valued : List String
  operands : Nat

/-- What was given. An option that stands alone has an empty value. -/
structure Given where
  options : List (String × String)
  operands : List String

namespace Given

/-- Nothing was given yet. -/
def nothing : Given := ⟨[], []⟩

/-- Was the option given? -/
def has (given : Given) (name : String) : Bool :=
  (given.options.lookup name).isSome

/-- One more option, behind the others. -/
def addOption (given : Given) (name value : String) : Given :=
  { given with options := given.options ++ [(name, value)] }

/-- More operands, behind the others. -/
def addOperands (given : Given) (texts : List String) : Given :=
  { given with operands := given.operands ++ texts }

/-- Read what a form asks for, and stop at the first operand too many. -/
def read (form : Form) : List String → Given → Except UsageProblem (Given × List String)
  | [], given => .ok (given, [])
  | argument :: rest, given =>
    match Argument.ofText argument with
    | .operand text =>
      if given.operands.length < form.operands then read form rest (given.addOperands [text])
      else .ok (given, argument :: rest)
    | .separator =>
      let room := form.operands - given.operands.length
      match rest.drop room with
      | [] => .ok (given.addOperands rest, [])
      | text :: _ => .error (.unexpectedOperand text)
    | .option name value =>
      if given.has name then .error (.repeatedOption name)
      else if form.flags.contains name then
        match value with
        | none => read form rest (given.addOption name "")
        | some _ => .error (.unexpectedValue name)
      else if form.valued.contains name then
        match value, rest with
        | some value, rest => read form rest (given.addOption name value)
        | none, next :: rest =>
          match Argument.ofText next with
          | .operand value => read form rest (given.addOption name value)
          | _ => .error (.missingValue name)
        | none, [] => .error (.missingValue name)
      else .error (.unknownOption name)

end Given

/-- The option for the configuration, which goes with every command. -/
def configOption : String := "--config"

/-- What can stand in front of the command. -/
def generalForm : Form := ⟨[], [configOption], 0⟩

/-- What can stand behind a command. -/
def formOf? : String → Option Form
  | "check" => some ⟨["--json"], [configOption], 1⟩
  | "preprocess" => some ⟨["--line-map"], [configOption], 1⟩
  | "assemble" => some ⟨[], [configOption, "--pass"], 1⟩
  | "config" => some ⟨[], [configOption], 0⟩
  | _ => none

/-- The command of a name, with what was given for it. Image is assembled unless another
    pass is named. -/
def commandOf? (name : String) (given : Given) : Option Command :=
  match name, given.operands with
  | "check", [document] => some (.check document (given.has "--json"))
  | "preprocess", [file] => some (.preprocess file (given.has "--line-map"))
  | "assemble", [document] =>
    some (.assemble document ((given.options.lookup "--pass").getD "Image"))
  | "config", [] => some .config
  | _, _ => none

/-- Read the arguments of a command line. A configuration behind the command goes before
    one in front of it. -/
def Invocation.ofArguments (arguments : List String) : Except UsageProblem Invocation := do
  match ← Given.read generalForm arguments .nothing with
  | (_, []) => .error .missingCommand
  | (general, name :: rest) =>
    match formOf? name with
    | none => .error (.unknownCommand name)
    | some form =>
      match ← Given.read form rest .nothing with
      | (_, text :: _) => .error (.unexpectedOperand text)
      | (given, []) =>
        match commandOf? name given with
        | none => .error (.missingOperand name)
        | some command =>
          let configFile :=
            (given.options.lookup configOption).or (general.options.lookup configOption)
          .ok ⟨command, configFile⟩

end Multipass.CommandLine
