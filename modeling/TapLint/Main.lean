/-
The program.

It looks at the files that its arguments name, does what it is asked to do, and
prints, reports and writes what came of it.
-/
import Std.Time.Zoned
import TapLint.CommandLine.Run
import TapLint.Ruby.Program
import TapLint.Yaml.Value

namespace TapLint.Main

open CommandLine

/-- The bytes of a file. -/
def bytesOf (path : String) : IO (List UInt8) := do
  let content ← IO.FS.readBinFile path
  pure content.data.toList

/-- What stands at a path: a file with its bytes, or a directory with its formula
files and, if the search is deep, what is below its directories. -/
partial def entryAt (path : String) (deep : Bool) : IO Entry := do
  let place ← IO.FS.realPath path
  if ← place.isDir then
    let entries ← place.readDir
    let inside ← entries.toList.filterMapM fun e => do
      let below := path ++ "/" ++ e.fileName
      if ← e.path.isDir then
        if deep then
          let entry ← entryAt below deep
          pure (some (e.fileName, entry))
        else pure (some (e.fileName, Entry.directory []))
      else if isFormulaFileName e.fileName then
        let bytes ← bytesOf below
        pure (some (e.fileName, Entry.file bytes))
      else pure none
    pure (.directory inside)
  else
    let bytes ← bytesOf path
    pure (.file bytes)

/-- The names that lead from the root to a path. -/
def placeOf (here : List String) (path : String) : List String :=
  let p := Path.ofString path
  let start := if p.anchor = 0 then here else []
  p.parts.foldl (fun place part => if part = ".." then place.dropLast else place ++ [part]) start

/-- Adds what stands at a path to a tree, if anything does. -/
def look (deep : Bool) (files : Files) (path : String) : IO Files := do
  try
    let entry ← entryAt path deep
    let place := placeOf files.here path
    let known := (files.root.at? place).getD (.directory [])
    pure { files with root := (known.overlay entry).put files.root place }
  catch _ => pure files

/-- The directory that a path to a file names. -/
def parentOf (path : String) : String :=
  let p := Path.ofString path
  ({ p with parts := p.parts.dropLast } : Path).shown

/-- The paths that a request is about, and whether what is below them matters. -/
def pathsOf (settings : Settings) : Request → List String × Bool
  | .audit o =>
    (o.paths ++ o.policy.toList ++ settings.policyPath.toList ++
      (o.output.toList.map parentOf) ++ o.output.toList, o.recursive)
  | .listCops policy => (policy.toList, false)
  | _ => ([], false)

/-- The variables that the settings depend on. -/
def variableNames : List String := [
  "FORMULA_COPS_OUTPUT_FORMAT", "FORMULA_COPS_LOG_LEVEL", "FORMULA_COPS_MAX_WORKERS",
  "FORMULA_COPS_MAX_FILE_SIZE_KB", "FORMULA_COPS_POLICY"]

/-- The environment of the program. -/
def environment : IO Environment := do
  let bindings ← variableNames.filterMapM fun name => do
    let text ← IO.getEnv name
    pure (text.map (name, ·))
  pure { bindings }

/-- The time of day. -/
def now : IO Moment := do
  let t ← Std.Time.PlainDateTime.now
  let made := Moment.make t.date.year.toInt t.date.month.val t.date.day.val t.time.hour.val
    t.time.minute.val t.time.second.val (t.time.nanosecond.val / 1000) none
  match made with
  | .ok m => pure m
  | .error e => throw (IO.userError e.message)

/-- The directory that the program works in. -/
def workingDirectory : IO (List String) := do
  let here ← IO.currentDir
  pure (Path.ofString here.toString).parts

/-- How many calls the program lets be nested. -/
def host : Host := { calls := 980 }

/-- Writes a file at a place. -/
def save (place : List String) (text : String) : IO Unit :=
  IO.FS.writeFile ("/" ++ String.intercalate "/" place) text

/-- Prints, reports and writes what came of a run; the answer is the exit code. -/
def conclude (result : Except Failure Outcome) : IO UInt32 := do
  match result with
  | .error why =>
    if let .text _ (some place) := why then save place ""
    IO.eprintln why.message
    pure 1
  | .ok outcome =>
    if let some saved := outcome.saved then save saved.place saved.text
    IO.print outcome.output
    IO.eprint outcome.messages
    match outcome.ending with
    | .verdict code | .dismissed code => pure code.toUInt32

end TapLint.Main

open TapLint TapLint.Main in
/-- Does what the arguments ask for. -/
def main (arguments : List String) : IO UInt32 := do
  let request := CommandLine.Request.ofArguments arguments
  let environment ← environment
  let settings := (Settings.fill environment {}).value
  let (paths, deep) := pathsOf settings request
  let here ← workingDirectory
  let start : Files := { root := Entry.put (.directory []) (.directory []) here, here }
  let files ← paths.foldlM (look deep) start
  conclude (request.run
    { files, environment, reader := Ruby.Tree.ofText, yaml := Value.ofYaml, host, now := ← now })
