/-
Doing what the program is asked to do.

A run looks at the files and the environment around it and says what it prints,
what it reports, which file it writes and how it ends.

* `audit`, `listCops` — the two commands;
* `Request.run` — any request.
-/
import TapLint.Audit.Auditor
import TapLint.CommandLine.Request
import TapLint.Files.Writing
import TapLint.Policy.File
import TapLint.Settings.Basic

namespace TapLint.CommandLine

/-- What surrounds a run. -/
structure Surroundings where
  files : Files
  environment : Environment
  reader : TreeReader
  yaml : YamlReader
  host : Host
  now : Moment

/-- How a run ends. -/
inductive Ending where
  /-- A command has given its verdict. -/
  | verdict (code : Nat)
  /-- The arguments were no request for a command. -/
  | dismissed (code : Nat)
  deriving Repr, DecidableEq

/-- A file that a run leaves behind. -/
structure Saved where
  place : List String
  text : String
  deriving Repr, DecidableEq

/-- What comes of a run. -/
structure Outcome where
  ending : Ending
  output : String := ""
  messages : String := ""
  saved : Option Saved := none
  deriving Repr, DecidableEq

/-- What a run breaks off at. -/
inductive Failure where
  | policy (why : PolicyFileError)
  | audit (why : AuditStop)
  | output (why : WriteError)
  /-- A text cannot be encoded; a file that was to hold it is left empty. -/
  | text (why : String) (emptied : Option (List String))
  deriving Repr, DecidableEq

/-- The wording of a failure. -/
def Failure.message : Failure → String
  | policy why => why.message
  | audit why => why.message
  | output why => why.message
  | text why _ => why

/-! ### Obstacles -/

/-- What keeps a command from its work. -/
inductive Obstacle where
  | policy (why : PolicyFileError)
  | cops (why : UnknownCops)
  | format (name : String)
  | audit (why : AuditStop)
  deriving Repr, DecidableEq

/-- How a command reports a policy that it cannot use, if it can report it at all. -/
def policyComplaint? (why : PolicyFileError) : Option String :=
  match why with
  | .missing _ => some ("Error: " ++ why.message)
  | .malformed .. | .notMap _ | .invalid (.unknownCop _) | .invalid (.invalidSeverity ..) =>
    some ("Error loading policy: " ++ why.message)
  | .refused _ | .directory _ | .undecodable _ | .unreadable _ | .invalid (.copsNotMap _)
  | .invalid (.settingsNotMap _) | .invalid (.unshowable _) => none

/-- How a command reports an obstacle; what it cannot report is a failure. -/
def Obstacle.complaint : Obstacle → Except Failure String
  | policy why =>
    match policyComplaint? why with
    | some line => .ok line
    | none => .error (.policy why)
  | cops why => .ok ("Error: " ++ why.message)
  | format name => .ok ("Error: Unknown output format: " ++ name)
  | audit why =>
    match why with
    | .path e => .ok ("Error: " ++ e.message)
    | .refused _ | .tooDeep _ => .error (.audit why)

/-- A piece of work that events are reported of, and that obstacles may end. -/
abbrev Work := ExceptT Obstacle Logged

/-- The policy at a path; without a path, the built-in one. -/
def loadPolicy (w : Surroundings) (path : Option String) : Work Policy :=
  match path.filter (!·.isEmpty) with
  | none => pure .builtIn
  | some p => do
    let policy ← ExceptT.mk
      ((·.mapError .policy) <$> Policy.ofFile w.yaml w.host w.files (Path.ofString p))
    ExceptT.lift (Logged.report (.policyChosen policy.name))
    pure policy

/-! ### Auditing -/

/-- The least important level that a name lets through. -/
def thresholdOf (name : String) : Nat :=
  match name with
  | "CRITICAL" | "FATAL" => 50
  | "ERROR" => 40
  | "INFO" => 20
  | "DEBUG" => 10
  | _ => 30

/-- The least important level of the events that an audit shows. -/
def threshold (o : AuditOptions) (s : Settings) : Nat :=
  if o.debug then 10
  else if o.verbose then 20
  else thresholdOf (Text.toUpper s.logLevel)

/-- The lines for the events that are important enough. -/
def shownEvents (least : Nat) (events : List Event) : List String :=
  (events.filter fun e => least ≤ e.level.number).map Event.line

/-- The format that an audit is to be reported in. -/
def formatOf (o : AuditOptions) (s : Settings) : Except Obstacle Format :=
  match o.format with
  | some f => .ok f
  | none =>
    match Format.ofName? s.outputFormat with
    | some f => .ok f
    | none => .error (.format s.outputFormat)

/-- The report of an audit, and its format. -/
def auditReport (w : Surroundings) (o : AuditOptions) (s : Settings) : Work (Report × Format) := do
  let policy ← loadPolicy w ((o.policy.filter (!·.isEmpty)).or s.policyPath)
  let cops ← ExceptT.mk ((·.mapError .cops) <$> policy.select o.only)
  let format ← ExceptT.mk (pure (formatOf o s))
  let auditor : Auditor :=
    { reader := w.reader, cops, limit := s.maxFileSize, workers := s.maxWorkers, now := w.now }
  let report ← ExceptT.mk
    ((·.mapError .audit) <$> auditor.auditPathsOn w.host w.files o.recursive o.paths)
  pure (report, format)

/-- Whether an audit found what it should fail on. -/
def isFailing (o : AuditOptions) (report : Report) : Bool :=
  o.failOnDiagnostics && (report.tally.offenses != 0 || !report.errors.isEmpty)

/-- Delivers a text: to a file, or to the output. -/
def deliver (w : Surroundings) (output : Option String) (text : String) (code : Nat)
    (messages : List String) : Except Failure Outcome :=
  match output.filter (!·.isEmpty) with
  | none =>
    match w.host.unprintable? text with
    | some why => .error (.text why none)
    | none =>
      .ok { ending := .verdict code, output := text ++ "\n", messages := unlines messages }
  | some path =>
    match w.files.destination path with
    | .error why => .error (.output why)
    | .ok place =>
      match w.host.unwritable? text with
      | some why => .error (.text why (some place))
      | none =>
        .ok { ending := .verdict code
              messages := unlines (messages ++ ["Report saved to: " ++ path])
              saved := some { place, text } }

/-- Audits files. -/
def audit (w : Surroundings) (o : AuditOptions) : Except Failure Outcome := do
  let settings := (Settings.fill w.environment {}).value
  let work := (auditReport w o settings).run
  let messages := shownEvents (threshold o settings) work.events
  match work.value with
  | .error obstacle =>
    let line ← obstacle.complaint
    pure { ending := .verdict 1, messages := unlines (messages ++ [line]) }
  | .ok (report, format) =>
    deliver w o.output (report.render format) (if isFailing o report then 1 else 0) messages

/-! ### Listing the cops -/

/-- The lines about a cop. -/
def copLines (policy : Policy) (number : Nat) (rule : Rule) : List String :=
  let state := if policy.isEnabled rule.name then "[OK] Enabled" else "[OFF] Disabled"
  ["  " ++ toString number ++ ". " ++ rule.name ++ " " ++ state ++ " (" ++
      (policy.severityFor rule.name).name ++ ")",
    "     " ++ rule.description,
    ""]

/-- The rules, ordered by name. -/
def sortedRules : List Rule := Rule.all.mergeSort fun a b => decide (a.name ≤ b.name)

/-- Lists the cops. -/
def listCops (w : Surroundings) (policy : Option String) : Except Failure Outcome :=
  match (loadPolicy w policy).run.value with
  | .error obstacle => do
    let line ← obstacle.complaint
    pure { ending := .verdict 1, messages := unlines [line] }
  | .ok policy =>
    let lines := (sortedRules.mapIdx fun i rule => copLines policy (i + 1) rule).flatten
    pure { ending := .verdict 0, output := unlines (["Available Cops:", ""] ++ lines) }

/-! ### Requests -/

/-- Does what the program is asked to do. -/
def Request.run (w : Surroundings) : Request → Except Failure Outcome
  | .audit options => CommandLine.audit w options
  | .listCops policy => CommandLine.listCops w policy
  | .nothing => .ok { ending := .verdict 1, output := unlines mainHelp }
  | .print lines => .ok { ending := .dismissed 0, output := unlines lines }
  | .invalid command usage why =>
    .ok { ending := .dismissed 2
          messages := unlines (usage ++ [command ++ ": error: " ++ why.message]) }

/-- Does what some arguments ask for. -/
def run (w : Surroundings) (arguments : List String) : Except Failure Outcome :=
  (Request.ofArguments arguments).run w

end TapLint.CommandLine
