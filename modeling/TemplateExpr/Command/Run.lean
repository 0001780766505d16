import TemplateExpr.Command.Arguments
import TemplateExpr.Config.Yaml
import TemplateExpr.Expr.Json
import TemplateExpr.Render
import TemplateExpr.Value.Json
import TemplateExpr.Yaml.Json

/-!
# Running commands

What a command writes and with which status it ends, given what the files and the standard input hold.
Rendering goes through its stages in order (configuration, environment, template, tree or parsing,
evaluation) and the first stage that fails decides; only parsing and evaluation count as failures of the
template itself.
-/

namespace TemplateExpr

/-- The documents that are read in a format of their own. -/
inductive DocumentKind where
  | configuration
  | jsonEnvironment
  | yamlEnvironment
  | tree
  deriving DecidableEq

/-- What a command depends on: the text of a file, or why it cannot be read; the standard input; and what the
reader of a kind of document says of a text that it refuses. -/
structure Inputs where
  file : String → Except String String
  standardInput : Except String String
  complaint : DocumentKind → String → String

/-! ### Failures -/

/-- What a command was about when something outside the library failed. -/
inductive Task where
  | inlineEnv
  | envFile (path : String)
  | yamlEnv (path : String)
  | jsonEnv (path : String)
  | standardInput
  | templateFile (path : String)

def Task.text : Task → String
  | inlineEnv => "invalid --env-json"
  | envFile path => "failed to read environment '" ++ path ++ "'"
  | yamlEnv path => "invalid YAML environment '" ++ path ++ "'"
  | jsonEnv path => "invalid JSON environment '" ++ path ++ "'"
  | standardInput => "failed to read template from stdin"
  | templateFile path => "failed to read template '" ++ path ++ "'"

/-- Why a command fails: an error of the library, or a failure outside of it with the task at hand. -/
inductive CommandError where
  | library (error : Error)
  | during (task : Task) (reason : String)

namespace CommandError

/-- The error of the library, if it is one. -/
def library? : CommandError → Option Error
  | library error => some error
  | during _ _ => none

def message : CommandError → String
  | library error => error.message
  | during task reason => task.text ++ ": " ++ reason

/-- An error of the library has a status of its own; everything else is a mistake of the user. -/
def exitStatus (e : CommandError) : Nat := e.library?.elim userFailure Error.exitStatus

end CommandError

/-! ### Paths -/

/-- The last component of a path, if it names a file. -/
def fileName? (path : List Char) : Option (List Char) :=
  match ((path.splitOn '/').filter fun part => part != [] && part != ['.']).getLast? with
  | some part => if part = ['.', '.'] then none else some part
  | none => none

/-- What follows the last dot of a file's name; a dot at the beginning does not count. -/
def extension? (path : String) : Option String := do
  let name ← fileName? path.toList
  let backwards := name.reverse
  let tail := backwards.takeWhile (· != '.')
  let stem := (backwards.drop tail.length).drop 1
  if stem.isEmpty then none else some (String.ofList tail.reverse)

def isYamlPath (path : String) : Bool := extension? path ∈ [some "yaml", some "yml"]

/-- Whether a template's path stands for the standard input: it is a single dash, up to separators and
dots behind it. -/
def isStandardInput (path : String) : Bool :=
  match path.toList.splitOn '/' with
  | first :: others => first == ['-'] && others.all fun part => part == [] || part == ['.']
  | [] => false

/-! ### Rendering -/

namespace RenderArguments

def loadConfig (arguments : RenderArguments) (inputs : Inputs) : Except Error Config :=
  match arguments.config with
  | none => .ok .standard
  | some path =>
    match inputs.file path with
    | .error reason => .error (.user (.unreadableConfig path reason))
    | .ok text => Config.read (inputs.complaint .configuration) text

def readJsonEnv (inputs : Inputs) (task : Task) (text : String) : Except CommandError Value :=
  match Json.read? (some Json.valueDepth) text with
  | some document => .ok (.ofJson document)
  | none => .error (.during task (inputs.complaint .jsonEnvironment text))

def readYamlEnv (inputs : Inputs) (task : Task) (text : String) : Except CommandError Value :=
  match (Yaml.read? text).bind Yaml.toJson? with
  | some document => .ok (.ofJson document)
  | none => .error (.during task (inputs.complaint .yamlEnvironment text))

/-- The environment; without any it is an empty object. -/
def loadEnv (arguments : RenderArguments) (inputs : Inputs) : Except CommandError Value :=
  match arguments.envJson, arguments.env with
  | some text, _ => readJsonEnv inputs .inlineEnv text
  | none, none => .ok (.object .nil)
  | none, some path =>
    match inputs.file path with
    | .error reason => .error (.during (.envFile path) reason)
    | .ok text =>
      if isYamlPath path then readYamlEnv inputs (.yamlEnv path) text
      else readJsonEnv inputs (.jsonEnv path) text

def readTemplate (arguments : RenderArguments) (inputs : Inputs) : Except CommandError String :=
  if isStandardInput arguments.template then inputs.standardInput.mapError (.during .standardInput)
  else (inputs.file arguments.template).mapError (.during (.templateFile arguments.template))

/-- The tree of a template, which is stored as such or written as an expression. -/
def readTree (arguments : RenderArguments) (inputs : Inputs) (config : Config) (source : String) :
    Except Error Expr :=
  if arguments.tree then
    match Expr.read? source with
    | some e => .ok e
    | none => .error (.user (.badTree arguments.template (inputs.complaint .tree source)))
  else config.parse source

def run (arguments : RenderArguments) (inputs : Inputs) : Except CommandError String := do
  let config ← (arguments.loadConfig inputs).mapError .library
  let config ← config.checked.mapError .library
  let env ← arguments.loadEnv inputs
  let source ← arguments.readTemplate inputs
  let e ← (arguments.readTree inputs config source).mapError .library
  (config.renderTree env e).mapError .library

end RenderArguments

/-! ### Commands -/

def Command.run (inputs : Inputs) : Command → Except CommandError (List String)
  | render arguments => (arguments.run inputs).map fun output => [output]
  | filter name value =>
    match Filter.ofName? name with
    | some f => .ok [(f.apply (.string value)).text]
    | none => .error (.library (.user (.unknownFilter name)))
  | filters => .ok (Filter.library.map Filter.name)

/-- How a program ends: its status, its output and its message, if there is one. -/
structure Outcome where
  status : Nat
  output : String
  message : Option String
  deriving DecidableEq

/-- The outcome of a command: each line of its output ended, and no output if it fails. -/
def Command.outcome (inputs : Inputs) (command : Command) : Outcome :=
  match command.run inputs with
  | .ok lines => ⟨success, String.join (lines.map (· ++ "\n")), none⟩
  | .error e => ⟨e.exitStatus, "", some e.message⟩

end TemplateExpr
