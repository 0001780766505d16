/-!
# Command line arguments

A command line names one of the commands `render`, `filter` and `filters`, before or after which options
may stand.  Options are read from the left: a flag may not repeat, a setting takes its value from the
same argument or the next, letters may be joined behind one dash, and `--` ends the options.  A request
for help ends the reading at once, so it wins over whatever is wrong behind it.
-/

namespace TemplateExpr

structure RenderArguments where
  /-- The file of the template; `-` is the standard input. -/
  template : String
  env : Option String
  envJson : Option String
  config : Option String
  tree : Bool
  deriving DecidableEq

inductive Command where
  | render (arguments : RenderArguments)
  | filter (name value : String)
  | filters
  deriving DecidableEq

/-- Why a command line does not run a command. -/
inductive ArgumentFault where
  /-- Help or the version was asked for. -/
  | help
  | nothing
  | misuse
  deriving DecidableEq

/-! ### Options -/

inductive Flag where
  | verbose
  | tree
  | help
  | version
  deriving DecidableEq

inductive Setting where
  | env
  | envJson
  | config
  deriving DecidableEq

inductive CommandOption where
  | flag (flag : Flag)
  | setting (setting : Setting)

/-- What a command takes: options with two dashes, options with one, and a number of operands, which
may be empty or not. -/
structure CommandShape where
  long? : String → Option CommandOption
  short? : Char → Option CommandOption
  operands : Nat
  emptyOperands : Bool

/-- The options that every command has. -/
def commonLong? (name : String) : Option CommandOption :=
  if name = "verbose" then some (.flag .verbose)
  else if name = "help" then some (.flag .help)
  else if name = "version" then some (.flag .version)
  else none

def commonShort? (letter : Char) : Option CommandOption :=
  match letter with
  | 'v' => some (.flag .verbose)
  | 'h' => some (.flag .help)
  | 'V' => some (.flag .version)
  | _ => none

/-- A command with the common options only. -/
def CommandShape.plain (operands : Nat) : CommandShape := ⟨commonLong?, commonShort?, operands, true⟩

def CommandShape.render : CommandShape where
  long? name :=
    if name = "env" then some (.setting .env)
    else if name = "env-json" then some (.setting .envJson)
    else if name = "config" then some (.setting .config)
    else if name = "ast" then some (.flag .tree)
    else commonLong? name
  short? letter :=
    match letter with
    | 'e' => some (.setting .env)
    | 'c' => some (.setting .config)
    | _ => commonShort? letter
  operands := 1
  emptyOperands := false

/-! ### Reading -/

/-- What has been given so far, the latest first. -/
structure Given where
  flags : List Flag
  settings : List (Setting × String)
  operands : List String

namespace Given

def none : Given := ⟨[], [], []⟩

def addFlag (given : Given) (flag : Flag) : Except ArgumentFault Given :=
  if flag = .help ∨ flag = .version then .error .help
  else if flag ∈ given.flags then .error .misuse
  else .ok { given with flags := flag :: given.flags }

/-- One setting more; the name of a file is not empty. -/
def addSetting (given : Given) (setting : Setting) (value : String) : Except ArgumentFault Given :=
  if given.settings.any fun (s, _) => s = setting then .error .misuse
  else if value = "" ∧ setting ≠ .envJson then .error .misuse
  else .ok { given with settings := (setting, value) :: given.settings }

def addOperand (given : Given) (shape : CommandShape) (value : String) :
    Except ArgumentFault Given :=
  if shape.operands ≤ given.operands.length then .error .misuse
  else if value = "" ∧ !shape.emptyOperands then .error .misuse
  else .ok { given with operands := value :: given.operands }

def setting? (given : Given) (setting : Setting) : Option String := given.settings.lookup setting

end Given

/-- Whether an argument can only be an option. -/
def looksLikeOption (argument : String) : Bool :=
  match argument.toList with
  | '-' :: _ :: _ => true
  | _ => false

/-- Letters behind one dash: flags, and a setting at the end of them with its value if there is one. -/
def readLetters (shape : CommandShape) (given : Given) :
    List Char → Except ArgumentFault (Given × Option Setting)
  | [] => .ok (given, none)
  | letter :: rest =>
    match shape.short? letter, rest with
    | none, _ => .error .misuse
    | some (.flag flag), rest => do readLetters shape (← given.addFlag flag) rest
    | some (.setting setting), [] => .ok (given, some setting)
    | some (.setting setting), '=' :: value => do
      pure (← given.addSetting setting (String.ofList value), none)
    | some (.setting setting), value => do
      pure (← given.addSetting setting (String.ofList value), none)

/-- A long option without its dashes, with the value of a setting if it is in the same argument. -/
def readLong (shape : CommandShape) (given : Given) (body : List Char) :
    Except ArgumentFault (Given × Option Setting) :=
  let name := body.takeWhile (· != '=')
  match shape.long? (String.ofList name), body.drop name.length with
  | some (.flag flag), [] => do pure (← given.addFlag flag, none)
  | some (.setting setting), [] => .ok (given, some setting)
  | some (.setting setting), _ :: value => do
    pure (← given.addSetting setting (String.ofList value), none)
  | _, _ => .error .misuse

def readOperands (shape : CommandShape) (given : Given) (arguments : List String) :
    Except ArgumentFault Given :=
  arguments.foldlM (fun given argument => given.addOperand shape argument) given

def readArguments (shape : CommandShape) (given : Given) : List String → Except ArgumentFault Given
  | [] => .ok given
  | argument :: rest =>
    if argument = "--" then readOperands shape given rest
    else if looksLikeOption argument then do
      let (given, pending) ← match argument.toList with
        | '-' :: '-' :: body => readLong shape given body
        | letters => readLetters shape given letters.tail
      match pending, rest with
      | none, rest => readArguments shape given rest
      | some setting, value :: rest =>
        if looksLikeOption value then .error .misuse
        else readArguments shape (← given.addSetting setting value) rest
      | some _, [] => .error .misuse
    else do readArguments shape (← given.addOperand shape argument) rest

/-! ### Commands -/

def commandNames : List String := ["render", "filter", "filters"]

def readCommand (name : String) (arguments : List String) : Except ArgumentFault Command :=
  if name = "render" then do
    let given ← readArguments .render .none arguments
    match given.operands with
    | [template] =>
      let env := given.setting? .env
      let envJson := given.setting? .envJson
      if env.isSome && envJson.isSome then .error .misuse
      else pure (.render ⟨template, env, envJson, given.setting? .config, given.flags.contains .tree⟩)
    | _ => .error .misuse
  else if name = "filter" then do
    let given ← readArguments (.plain 2) .none arguments
    match given.operands with
    | [value, filter] => pure (.filter filter value)
    | _ => .error .misuse
  else if name = "filters" then do
    let _ ← readArguments (.plain 0) .none arguments
    pure .filters
  else .error .misuse

/-- The help command: help on nothing, or on one command. -/
def readHelp : List String → ArgumentFault
  | [] => .help
  | [name] => if name ∈ "help" :: commandNames then .help else .misuse
  | _ => .misuse

def readCommandLine (given : Given) : List String → Except ArgumentFault Command
  | [] => .error (if given.flags.isEmpty then .nothing else .misuse)
  | argument :: rest =>
    if argument = "--" then .error (if rest.isEmpty && given.flags.isEmpty then .nothing else .misuse)
    else if looksLikeOption argument then do
      let (given, _) ← match argument.toList with
        | '-' :: '-' :: body => readLong (.plain 0) given body
        | letters => readLetters (.plain 0) given letters.tail
      readCommandLine given rest
    else if argument = "help" then .error (readHelp rest)
    else readCommand argument rest

def Command.ofArguments (arguments : List String) : Except ArgumentFault Command :=
  readCommandLine .none arguments

end TemplateExpr
