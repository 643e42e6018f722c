/-
Settings: what may be chosen besides the command line.

A setting that has its default value is looked up in the environment.

* `Settings.fill` — the settings with what the environment says;
* `Settings.ofFile` — the settings in the environment that a file extends.
-/
import TapLint.Files.Text
import TapLint.Log
import TapLint.Settings.Environment
import TapLint.Text.Case
import TapLint.Text.Integer

namespace TapLint

/-- The settings, each with its default. -/
structure Settings where
  outputFormat : String := "summary"
  logLevel : String := "WARNING"
  maxWorkers : Int := 1
  /-- In units of 1024 bytes. -/
  maxFileSize : Int := 512
  policyPath : Option String := none
  deriving Repr, DecidableEq

namespace Settings

/-- The settings without any choice. -/
def defaults : Settings := {}

/-- A text that is looked up if it has its default value. -/
def text (env : Environment) (variableName default : String) (adjust : String → String)
    (current : String) : String :=
  if current = default then ((env.given? variableName).map adjust).getD current else current

/-- An integer that is looked up if it has its default value.  A text that is no
integer is reported and ignored. -/
def integer (env : Environment) (variableName : String) (default current : Int) : Logged Int :=
  if current = default then
    match env.given? variableName with
    | none => pure current
    | some s =>
      match Text.integer? 10 s with
      | some n => pure n
      | none => do
        Logged.report (.notAnInteger variableName s)
        pure current
  else pure current

/-- The settings with what the environment says. -/
def fill (env : Environment) (s : Settings) : Logged Settings := do
  let maxWorkers ← integer env "FORMULA_COPS_MAX_WORKERS" defaults.maxWorkers s.maxWorkers
  let maxFileSize ←
    integer env "FORMULA_COPS_MAX_FILE_SIZE_KB" defaults.maxFileSize s.maxFileSize
  pure
    { outputFormat :=
        text env "FORMULA_COPS_OUTPUT_FORMAT" defaults.outputFormat Text.toLower s.outputFormat
      logLevel := text env "FORMULA_COPS_LOG_LEVEL" defaults.logLevel Text.toUpper s.logLevel
      maxWorkers
      maxFileSize
      policyPath := s.policyPath.or (env.given? "FORMULA_COPS_POLICY") }

/-- Why a file gives no settings. -/
inductive FileError where
  | directory (path : String)
  | undecodable (why : Utf8.Error)
  | assignment (why : AssignmentError)
  deriving Repr, DecidableEq

/-- The wording of an error. -/
def FileError.message : FileError → String
  | directory path => "[Errno 21] Is a directory: " ++ Text.quoted path
  | undecodable why => why.message
  | assignment why => why.message

/-- The environment that the text of a file leaves behind, and the settings in it. -/
def ofText (env : Environment) (text : String) :
    Environment × Logged (Except FileError Settings) :=
  match env.extend (Environment.assignments text) with
  | (env, none) => (env, .ok <$> fill env {})
  | (env, some why) => (env, pure (.error (.assignment why)))

/-- The environment that a file leaves behind, and the settings in it.  A file that
is not there changes nothing; the lines before the first block that is not text
count. -/
def ofFile (env : Environment) (files : Files) (path : Path) :
    Environment × Logged (Except FileError Settings) :=
  match files.entry? path with
  | none => (env, .ok <$> fill env {})
  | some (.directory _) => (env, pure (.error (.directory path.shown)))
  | some (.file bytes) =>
    match Text.streamed bytes with
    | (text, none) => ofText env text
    | (text, some why) =>
      match env.extend (Environment.assignments (Text.completeLines text)) with
      | (env, none) => (env, pure (.error (.undecodable why)))
      | (env, some why) => (env, pure (.error (.assignment why)))

end Settings

end TapLint
