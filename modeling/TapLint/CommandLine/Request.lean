/-
What the program is asked to do.

* `Request.ofArguments` — the request that some arguments make.
-/
import TapLint.CommandLine.Arguments
import TapLint.CommandLine.Help
import TapLint.Report.Format

namespace TapLint.CommandLine

/-- What an audit is asked for. -/
structure AuditOptions where
  paths : List String
  format : Option Format := none
  output : Option String := none
  policy : Option String := none
  /-- The cops to be asked, if not those that the policy enables. -/
  only : Option (List String) := none
  recursive : Bool := false
  failOnDiagnostics : Bool := false
  verbose : Bool := false
  debug : Bool := false
  deriving Repr, DecidableEq

/-- What the program is asked to do. -/
inductive Request where
  | audit (options : AuditOptions)
  | listCops (policy : Option String)
  /-- Nothing: the program explains itself. -/
  | nothing
  /-- To print some lines. -/
  | print (lines : List String)
  /-- Arguments that make no request, with the command that cannot read them and how
  it is called. -/
  | invalid (command : String) (usage : List String) (why : ArgumentError)
  deriving Repr, DecidableEq

/-- The option that asks for an explanation. -/
def helpSwitch : Switch := { names := ["-h", "--help"], final := true }

/-- What the program understands. -/
def mainSignature : Signature :=
  { switches := [helpSwitch, { names := ["--version"], final := true }]
    words := .command "command" ["audit", "list-cops"] }

/-- What the command that audits understands. -/
def auditSignature : Signature :=
  { switches := [
      helpSwitch,
      { names := ["--format"], takesArgument := true, choices := Format.all.map Format.name },
      { names := ["--output", "-o"], takesArgument := true },
      { names := ["--policy"], takesArgument := true },
      { names := ["--only"], takesArgument := true },
      { names := ["--recursive", "-r"] },
      { names := ["--fail-on-diagnostics"] },
      { names := ["--verbose", "-v"], group := some 0 },
      { names := ["--debug"], group := some 0 }]
    words := .some "paths" }

/-- What the command that lists the cops understands. -/
def listCopsSignature : Signature :=
  { switches := [helpSwitch, { names := ["--policy"], takesArgument := true }]
    words := .none }

namespace Reading

/-- The arguments of an option, in order. -/
def argumentsOf (r : Reading) (key : String) : List String :=
  r.given.filterMap fun g => if g.1.key == key then g.2 else none

/-- The argument of an option; the last one counts. -/
def argumentOf? (r : Reading) (key : String) : Option String := (r.argumentsOf key).getLast?

/-- Whether an option is given. -/
def has (r : Reading) (key : String) : Bool := r.given.any fun g => g.1.key == key

end Reading

/-- The options of an audit. -/
def AuditOptions.ofReading (r : Reading) : AuditOptions :=
  { paths := r.words
    format := (r.argumentOf? "--format").bind Format.ofName?
    output := r.argumentOf? "--output"
    policy := r.argumentOf? "--policy"
    only := if r.has "--only" then some (r.argumentsOf "--only") else none
    recursive := r.has "--recursive"
    failOnDiagnostics := r.has "--fail-on-diagnostics"
    verbose := r.has "--verbose"
    debug := r.has "--debug" }

namespace Request

/-- The request that the arguments of a command make.  What it does not know, the
program complains of, together with what the program does not know. -/
def ofCommand (command : String) (usage help : List String) (signature : Signature)
    (strangers arguments : List String) (make : Reading → Request) : Request :=
  match signature.read arguments with
  | .error (.final _) => .print help
  | .error (.error why) => .invalid (programName ++ " " ++ command) usage why
  | .ok r =>
    match strangers ++ r.strangers with
    | [] => make r
    | unknown => .invalid programName mainUsage (.unknown unknown)

/-- The request that some arguments make. -/
def ofArguments (arguments : List String) : Request :=
  match mainSignature.read arguments with
  | .error (.final key) =>
    if key = "--version" then .print [programName ++ " " ++ programVersion] else .print mainHelp
  | .error (.error why) => .invalid programName mainUsage why
  | .ok r =>
    match r.words with
    | "audit" :: rest =>
      ofCommand "audit" auditUsage auditHelp auditSignature r.strangers rest fun r =>
        .audit (AuditOptions.ofReading r)
    | "list-cops" :: rest =>
      ofCommand "list-cops" listCopsUsage listCopsHelp listCopsSignature r.strangers rest fun r =>
        .listCops (r.argumentOf? "--policy")
    | _ =>
      match r.strangers with
      | [] => .nothing
      | unknown => .invalid programName mainUsage (.unknown unknown)

end Request

end TapLint.CommandLine
