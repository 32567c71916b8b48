import ClientPatch.Command.Arguments
import ClientPatch.Config.Load
import ClientPatch.Patch
import ClientPatch.LineDiff.Script
import ClientPatch.Log.Filter
import ClientPatch.Style

/-!
# Running a command

A command finds its configuration, its workspace and its target, patches the target or only
looks at it, and tells the outcome. The file named on the command line comes before the one
named by the environment, and that before the configured one. A missing target has an exit
status of its own.
-/

namespace ClientPatch

/-- What a command finds around it. -/
structure Surroundings where
  /-- The target that the environment names. -/
  target : Option Text := none
  /-- The log filter that the environment asks for. -/
  logFilter : Option Text := none
  /-- Whether output is coloured. -/
  colors : Bool := false
  deriving DecidableEq, Repr

/-- Why a command fails. -/
inductive CommandError where
  /-- There is no working directory. -/
  | noDirectory (cause : FileFault)
  /-- There is no configuration. -/
  | config (cause : ConfigError)
  /-- There is no workspace. -/
  | workspace (cause : WorkspaceError)
  /-- The patch fails. -/
  | patch (cause : PatchError)
  deriving DecidableEq, Repr

/-- Messages from the outermost to the innermost cause. -/
def chain (messages : List Text) : Text := Text.joinWith [':', ' '] messages

/-- The messages of a refused path and of what lies behind it. -/
def WorkspaceError.messages : WorkspaceError → List Text
  | .unresolved path cause => [(WorkspaceError.unresolved path cause).message, cause.message]
  | e => [e.message]

/-- The messages of a failed patch and of what lies behind it. -/
def PatchError.messages : PatchError → List Text
  | .read path cause => [(PatchError.read path cause).message, cause.message]
  | .write path cause =>
    [(PatchError.write path cause).message, writeFaultMessage cause, cause.message]
  | .edit cause => [(PatchError.edit cause).message, cause.message]
  | .workspace cause => cause.messages
  | e => [e.message]

/-- The messages of a failed command and of what lies behind it. -/
def CommandError.messages : CommandError → List Text
  | .noDirectory cause => [cause.message]
  | .config cause =>
    cause.message :: (if cause.reason.isEmpty then [] else [cause.reason])
  | .workspace cause => cause.messages
  | .patch cause => cause.messages

/-- What a command leaves behind. -/
structure CommandRun where
  /-- The exit status. -/
  status : Nat
  /-- The standard output. -/
  stdout : Text
  /-- The standard error, the log included. -/
  stderr : Text
  /-- The tree afterwards. -/
  tree : FileTree

namespace CommandError

/-- The exit status of a failure: that of a missing target differs from all others. -/
def status : CommandError → Nat
  | .patch (.missing _) => 2
  | _ => 1

/-- What the standard error says of a failure. -/
def report (colors : Bool) : CommandError → Text
  | .patch (.missing path) => (PatchError.missing path).message ++ ['\n']
  | e => Style.red.paint colors "error:".toList ++ ' ' :: chain e.messages ++ ['\n']

end CommandError

/-- What a command works with. -/
structure Resolved where
  /-- The rules that are on. -/
  rules : Rules
  /-- The workspace. -/
  workspace : Workspace
  /-- The target, as it was asked for. -/
  target : Path

namespace CommandEvent

/-- An event of the command line. -/
def event (message : String) (fields : List (Text × Text)) : LogEvent :=
  ⟨.debug, commandOrigin, message.toList, fields⟩

/-- The configuration was loaded from a file, or is the default one. -/
def config : Option Path → LogEvent
  | some p => event "loaded config" [("config".toList, p)]
  | none => event "no config file, using defaults" []

/-- The workspace and the target are known. -/
def resolved (r : Resolved) : LogEvent :=
  event "resolved target" [("root".toList, r.workspace.rootPath), ("target".toList, r.target)]

end CommandEvent

/-- The target: as given, else as the environment names it, else as configured. -/
def chooseTarget (given : Option Path) (named : Option Text) (configured : Path) : Path :=
  match given, named with
  | some p, _ => p
  | none, some p => if p.isEmpty then configured else p
  | none, none => configured

/-- Find what a command works with, and tell it. -/
def TargetOptions.resolve (o : TargetOptions) (s : Surroundings) (t : FileTree) :
    Except CommandError Resolved × List LogEvent :=
  match t.workingDirectory with
  | none => (.error (.noDirectory .notFound), [])
  | some loc =>
    let directory := FileTree.pathOf loc
    match Config.loadOrDefault t o.config directory with
    | .error e => (.error (.config e), [])
    | .ok (c, source) =>
      let root := (o.root <|> c.target.root).getD directory
      match Workspace.ofPath t root with
      | .error e => (.error (.workspace e), [CommandEvent.config source])
      | .ok w =>
        let r : Resolved := ⟨c.rules, w, chooseTarget o.file s.target c.target.file⟩
        (.ok r, [CommandEvent.config source, CommandEvent.resolved r])

/-- One changed line as it is shown. A line without an end is given one, and an empty line
follows it. -/
def LineChange.shown (colors : Bool) (c : LineChange) : Text :=
  let sign := if c.isAdded then '+' else '-'
  let style := if c.isAdded then Style.green else Style.red
  let isEnded := c.line.getLast? == some '\n' || c.line.getLast? == some '\r'
  if isEnded then style.paint colors (sign :: c.line)
  else style.paint colors (sign :: c.line ++ ['\n']) ++ ['\n']

/-- The changed lines of a report under the names of the two sides. -/
def PatchReport.diff (colors : Bool) (r : PatchReport) : Text :=
  let header (mark side : Text) : Text :=
    Style.dimmed.paint colors (mark ++ ' ' :: r.file ++ ' ' :: side) ++ ['\n']
  '\n' :: header "---".toList "(original)".toList ++ header "+++".toList "(patched)".toList ++
    (lineChanges r.before r.patched).flatMap (LineChange.shown colors)

/-- The line of a call in the file as it is, where the banner may still be missing. -/
def PatchReport.lineOf (r : PatchReport) (call : RecordCall) : Nat :=
  call.line - if r.bannerInserted then 1 else 0

/-- One item of what a file still needs. -/
def needLine (colors : Bool) (t : Text) : Text :=
  [' ', ' '] ++ Style.yellow.paint colors ['-'] ++ ' ' :: t ++ ['\n']

/-- What a file still needs. -/
def PatchReport.needs (colors : Bool) (r : PatchReport) : Text :=
  "needs patch: ".toList ++ r.file ++ '\n' ::
    ((if r.bannerInserted then needLine colors "banner missing".toList else []) ++
      r.normalized.flatMap fun call =>
        needLine colors ("line ".toList ++ Text.ofNat (r.lineOf call) ++
          ": record call without key type".toList))

/-- What a status command says of an outcome. -/
def PatchOutcome.status (colors : Bool) : PatchOutcome → Text
  | .unchanged file => "up to date: ".toList ++ file ++ ['\n']
  | .patched r => r.needs colors
  | .wouldPatch r => r.needs colors

/-- What an apply command says of an outcome. -/
def PatchOutcome.told (colors diff : Bool) (o : PatchOutcome) : Text :=
  o.message ++ '\n' ::
    match diff, o.report? with
    | true, some r => r.diff colors
    | _, _ => []

/-- What an action says before it begins. -/
def Action.announcement (colors : Bool) : Action → Text
  | .apply true _ => Style.cyan.paint colors "[DRY RUN - nothing will be written]".toList ++ ['\n']
  | _ => []

/-- Whether an action writes. -/
def Action.mode : Action → PatchMode
  | .apply false _ => .write
  | _ => .dryRun

/-- What an action says of an outcome. -/
def Action.told (colors : Bool) : Action → PatchOutcome → Text
  | .apply _ diff, o => o.told colors diff
  | .status, o => o.status colors

/-- Run a command. -/
def Command.run (c : Command) (s : Surroundings) (t : FileTree) : CommandRun :=
  let filter := LogFilter.choose s.logFilter c.verbose
  let failure (stdout : Text) (e : CommandError) (events : List LogEvent) (t : FileTree) :
      CommandRun :=
    ⟨e.status, stdout, filter.lines events ++ e.report s.colors, t⟩
  match c.target.resolve s t with
  | (.error e, events) => failure [] e events t
  | (.ok r, events) =>
    let announcement := c.action.announcement s.colors
    let run := r.rules.patchWithin r.workspace c.action.mode r.target t
    match run.answer with
    | .error e => failure announcement (.patch e) (events ++ run.events) run.tree
    | .ok o =>
      ⟨0, announcement ++ c.action.told s.colors o, filter.lines (events ++ run.events),
        run.tree⟩

/-- How the program is called. -/
def usageText : Text :=
  ("Patch a generated TypeScript zod client after code generation\n\n" ++
    "Usage: zod-client-patcher [-v] apply [-f FILE] [-c CONFIG] [-r ROOT] [-n] [-d]\n" ++
    "       zod-client-patcher [-v] status [-f FILE] [-c CONFIG] [-r ROOT]\n").toList

/-- The name and the version of the program, as they are shown. -/
def versionLine : Text := "zod-client-patcher 0.1.0\n".toList

end ClientPatch
