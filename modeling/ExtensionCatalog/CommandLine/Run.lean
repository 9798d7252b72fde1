/-
**Running a command line.**

The settings come from a file, and options take the place of what the file says. The run prints the
paths of the documents it wrote and succeeds if every type could be discovered. What it logs and
what it prints go to the same place, which is standard output.

* `Request.loadSettings`: the settings of a run;
* `CommandLine.RunResult`: how a run ends, and what it changes, logs and prints;
* `CommandLine.RunResult.shown`: what stands on standard output;
* `CommandLine.run`: what a command line leads to.
-/

import ExtensionCatalog.CommandLine.Arguments
import ExtensionCatalog.Run

namespace ExtensionCatalog

namespace Request

/-- The settings with the options of the request in the place of what they say. -/
def override (request : Request) (settings : Settings) : Settings :=
  { settings with
    repository := {
      root := request.repository.or settings.repository.root
      lockfile := request.lockfile.or settings.repository.lockfile }
    output := {
      directory := request.output.getD settings.output.directory
      formats := if request.formats.isEmpty then settings.output.formats else request.formats } }

/-- The settings of the file that the request names, or else of the usual one. -/
def fileSettings (request : Request) (tree : FileTree) (directories : UserDirectories) :
    Performed (Except SettingsError Settings) :=
  match request.settings with
  | some path => ⟨[], [], Settings.load tree path⟩
  | none => Settings.loadDefault tree directories

/-- The settings of a run, which it has to be able to use with the options as well. -/
def loadSettings (request : Request) (tree : FileTree) (directories : UserDirectories) :
    Performed (Except SettingsError Settings) :=
  let loaded := request.fileSettings tree directories
  { loaded with
    outcome := loaded.outcome >>= fun settings => (request.override settings).checked }

end Request

namespace CommandLine

/-- The name and the version of the program. -/
def versionText : String := "nar-docgen 0.1.0"

def usageText : String := "Usage: nar-docgen [OPTIONS] <MODULE>"

def helpText : List String :=
  ["Generates extension documentation for NAR modules",
    "",
    usageText,
    "",
    "Arguments:",
    "  <MODULE>  Module coordinate, e.g. org.example:example-nar:nar:1.0",
    "",
    "Options:",
    "  -c, --config <CONFIG>          Configuration file (default: " ++
      "$XDG_CONFIG_HOME/nar-docgen/config.toml)",
    "  -l, --lockfile <LOCKFILE>      Dependency lockfile listing each module's dependency closure",
    "  -r, --repository <REPOSITORY>  Root of the local Maven-layout repository",
    "  -o, --output <OUTPUT>          Directory below which META-INF/ is written",
    "  -f, --format <FORMATS>         Output format; may be repeated (xml, properties, json)",
    "      --exclude <EXCLUDE>        Artifact never exposed to the module, e.g. this tool's " ++
      "own coordinate",
    "  -v, --verbose                  Enable debug logging",
    "  -h, --help                     Print help",
    "  -V, --version                  Print version"]

/-- How a run ends. -/
inductive ExitStatus where
  | success
  | failure
  | misuse
deriving DecidableEq

/-- The exit code of a status. -/
def ExitStatus.code : ExitStatus → UInt8
  | success => 0
  | failure => 1
  | misuse => 2

/-- What a run puts out at once: a line of its log, or a text that it prints. -/
inductive OutputLine where
  | logged (line : LogLine)
  | printed (text : String)
deriving DecidableEq

namespace OutputLine

/-- The text that is printed; a line of the log is not. -/
def printed? : OutputLine → Option String
  | logged _ => none
  | printed text => some text

/-- Whether a line is shown if those of the log have to pass a filter. -/
def passes (filter : LogLine → Bool) : OutputLine → Bool
  | logged line => filter line
  | printed _ => true

end OutputLine

/-- How a run ends, and what it changes and puts out. -/
structure RunResult where
  changes : List FileTree.Change
  status : ExitStatus
  /-- What is logged and what is printed, in order. -/
  output : List OutputLine
  /-- The least level of the log lines that are shown, unless the environment says otherwise. -/
  logLevel : String

namespace RunResult

/-- The files after a run. -/
def apply (result : RunResult) (tree : FileTree) : FileTree :=
  (tree.applyAll result.changes).1

/-- What stands on standard output, in order. The lines of the log have to pass a filter, which the
settings and the environment decide on. As everywhere, those less important than `info` are left
out. -/
def shown (result : RunResult) (filter : LogLine → Bool) : List OutputLine :=
  result.output.filter (·.passes filter)

/-- What stands on standard output besides lines of the log, in order. -/
def printed (result : RunResult) : List String := result.output.filterMap (·.printed?)

end RunResult

def defaultLogLevel : String := "info"

/-- The log level of a request; a run without settings has the default one. -/
def logLevelOf (request : Request) (settings : Except SettingsError Settings) : String :=
  if request.isVerbose then "debug"
  else
    match settings with
    | .ok settings => settings.logLevel
    | .error _ => defaultLogLevel

/-- The line logged when a run with settings begins. -/
def startLine : LogLine := ⟨.info, "Starting nar-docgen v0.1.0"⟩

/-- The line logged when an error ends a run, up to the texts of what caused the error. -/
def errorLine (message : String) : LogLine := ⟨.error, message⟩

/-- The lines logged about a report at the end of a run. -/
def closingLines (report : DocumentationReport) : List LogLine :=
  (if report.isDocumented then []
    else [⟨.warn, s!"No extensions of {report.module} were documented"⟩]) ++
  report.failures.map fun failure =>
    ⟨.error, s!"{failure.extensionType.name} discovery failed: {failure.error.message}"⟩

/-- How a run ends that documented a module. -/
def statusOf (report : DocumentationReport) : ExitStatus :=
  if report.isSuccess then .success else .failure

/-- Carry out a request. -/
def execute (tree : FileTree) (directories : UserDirectories) (request : Request) : RunResult :=
  -- The settings have the level of the log, which is only set up with them: what is logged while
  -- they are loaded goes nowhere.
  let loaded := request.loadSettings tree directories
  let level := logLevelOf request loaded.outcome
  match loaded.outcome with
  | .error error => ⟨loaded.changes, .failure, [.logged (errorLine error.message)], level⟩
  | .ok settings =>
    let documented := settings.document (loaded.apply tree) directories.home request.module
      request.excluded 0
    let changes := loaded.changes ++ documented.changes
    let log := startLine :: documented.log
    match documented.outcome with
    | .error fault =>
      ⟨changes, .failure, (log ++ [errorLine fault.message]).map .logged, level⟩
    | .ok documentation =>
      let printed := documentation.written.map (·.text)
      let closing := closingLines documentation.report
      ⟨changes, statusOf documentation.report,
        log.map .logged ++ printed.map .printed ++ closing.map .logged, level⟩

/-- What a command line leads to. What is wrong with one that is misused is not told on standard
output. -/
def run (tree : FileTree) (directories : UserDirectories) (arguments : List String) : RunResult :=
  match Invocation.parse arguments with
  | .document request => execute tree directories request
  | .help => ⟨[], .success, helpText.map .printed, defaultLogLevel⟩
  | .version => ⟨[], .success, [.printed versionText], defaultLogLevel⟩
  | .misuse => ⟨[], .misuse, [], defaultLogLevel⟩

end CommandLine

end ExtensionCatalog
