import TemplateExpr.Command.Run

/-!
# The program

Reads the files that a command names and the standard input, writes the output to the standard output
and the message to the standard error.
-/

namespace TemplateExpr

def failureReason : IO.Error → String
  | .noFileOrDirectory _ code details => details ++ " (os error " ++ toString code ++ ")"
  | .permissionDenied _ code details => details ++ " (os error " ++ toString code ++ ")"
  | .inappropriateType _ code details => details ++ " (os error " ++ toString code ++ ")"
  | error => toString error

def readText (path : String) : IO (Except String String) := do
  try
    pure (.ok (← IO.FS.readFile path))
  catch error => pure (.error (failureReason error))

def readStandardInput : IO (Except String String) := do
  try
    pure (.ok (← (← IO.getStdin).readToEnd))
  catch error => pure (.error (failureReason error))

/-- What is said of a text that is not what it should be. -/
def complaint (kind : DocumentKind) (_ : String) : String :=
  match kind with
  | .configuration => "not a configuration"
  | .jsonEnvironment => "not a JSON document"
  | .yamlEnvironment => "not a YAML document"
  | .tree => "not an expression tree"

/-- What a command may read. -/
def readInputs (command : Command) : IO Inputs := do
  match command with
  | .render arguments =>
    let paths := arguments.config.toList ++ arguments.env.toList ++
      (if isStandardInput arguments.template then [] else [arguments.template])
    let texts ← paths.mapM fun path => do pure (path, ← readText path)
    let input ← if isStandardInput arguments.template then readStandardInput else pure (.ok "")
    pure ⟨fun path => (texts.lookup path).getD (.error "not read"), input, complaint⟩
  | _ => pure ⟨fun _ => .error "not read", .ok "", complaint⟩

/-- What the program says about its use. -/
def usage : String := "usage: render TEMPLATE [--env FILE | --env-json JSON] [--config FILE] [--ast]\n" ++
  "       filter NAME VALUE\n       filters\n"

end TemplateExpr

open TemplateExpr in
def main (arguments : List String) : IO UInt32 := do
  match Command.ofArguments arguments with
  | .error .help =>
    IO.print usage
    pure 0
  | .error .nothing =>
    IO.eprint usage
    pure 2
  | .error .misuse =>
    IO.eprint ("error: bad arguments\n" ++ usage)
    pure 2
  | .ok command =>
    let outcome := command.outcome (← readInputs command)
    IO.print outcome.output
    match outcome.message with
    | some message => IO.eprintln ("Error: " ++ message)
    | none => pure ()
    pure (UInt32.ofNat outcome.status)
