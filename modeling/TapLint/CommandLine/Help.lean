/-
The texts that explain the commands.
-/
import TapLint.Report.Sarif

namespace TapLint.CommandLine

/-- The name of the program, as in its reports. -/
def programName : String := ({} : Sarif.Tool).name

/-- The version of the program, as in its reports. -/
def programVersion : String := ({} : Sarif.Tool).version

/-- Lines, each with its end. -/
def unlines (lines : List String) : String := String.join (lines.map (· ++ "\n"))

/-- How the program is called. -/
def mainUsage : List String :=
  ["usage: formula-cops [-h] [--version] \x7baudit,list-cops\x7d ..."]

/-- How the command that audits is called. -/
def auditUsage : List String := [
  "usage: formula-cops audit [-h] [--format \x7bsummary,json,sarif\x7d]",
  "                          [--output OUTPUT] [--policy PATH] [--only COP]",
  "                          [--recursive] [--fail-on-diagnostics]",
  "                          [--verbose | --debug]",
  "                          paths [paths ...]"]

/-- How the command that lists the cops is called. -/
def listCopsUsage : List String := ["usage: formula-cops list-cops [-h] [--policy PATH]"]

/-- What the program does. -/
def mainHelp : List String := mainUsage ++ [
  "",
  "Formula Cops - audits Homebrew formulae for macOS-provided dependencies",
  "",
  "positional arguments:",
  "  \x7baudit,list-cops\x7d  Command to execute",
  "    audit            Audit formula files",
  "    list-cops        List available cops",
  "",
  "options:",
  "  -h, --help         show this help message and exit",
  "  --version          show program's version number and exit",
  "",
  "Examples:",
  "  formula-cops audit Formula/zlib.rb",
  "  formula-cops audit Formula --recursive --format json",
  "  formula-cops audit Formula --only UsesFromMacos --fail-on-diagnostics",
  "  formula-cops audit Formula --policy my_policy.yaml --format sarif -o audit.sarif",
  "  formula-cops list-cops",
  "        "]

/-- What the command that audits does. -/
def auditHelp : List String := auditUsage ++ [
  "",
  "positional arguments:",
  "  paths                 Formula files or directories of formulae",
  "",
  "options:",
  "  -h, --help            show this help message and exit",
  "  --format \x7bsummary,json,sarif\x7d",
  "                        Output format (default: summary, or",
  "                        FORMULA_COPS_OUTPUT_FORMAT). Use 'sarif' for GitHub",
  "                        Code Scanning.",
  "  --output OUTPUT, -o OUTPUT",
  "                        Output file path",
  "  --policy PATH         Path to audit policy YAML (or set FORMULA_COPS_POLICY)",
  "  --only COP            Run only this cop (repeatable); 'UsesFromMacos' and",
  "                        'FormulaAudit/UsesFromMacos' both work",
  "  --recursive, -r       Recursively search directories for formulae",
  "  --fail-on-diagnostics",
  "                        Exit with error if any diagnostic is reported or any",
  "                        file fails to parse",
  "  --verbose, -v         Log each audited file",
  "  --debug               Log skipped calls and other debug detail"]

/-- What the command that lists the cops does. -/
def listCopsHelp : List String := listCopsUsage ++ [
  "",
  "options:",
  "  -h, --help     show this help message and exit",
  "  --policy PATH  Show enablement and severity from this policy"]

end TapLint.CommandLine
