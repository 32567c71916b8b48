import ClientPatch.Rules
import ClientPatch.Workspace
import ClientPatch.FileTree.Replace
import ClientPatch.Log

/-!
# Patching a file

A patch reads the target, applies the rules to its text, and replaces the file when they changed
something. Reading and writing go to the real location of the target, so that links stay links.
Within a workspace the location is checked when it is found and once more right before the write.
A patch comes in two halves, what is to be written and the writing, between which others may
change the tree. The system may refuse steps of the writing.
-/

namespace ClientPatch

/-- Whether a patch writes. -/
inductive PatchMode where
  /-- Replace the file when the rules change it. -/
  | write
  /-- Only tell what would be written. -/
  | dryRun
  deriving DecidableEq, Repr

/-- What the rules change in a file. -/
structure PatchReport where
  /-- The file, as it was asked for. -/
  file : Path
  /-- The text of the file. -/
  before : Text
  /-- The text after the rules. -/
  patched : Text
  /-- Whether the banner was missing. -/
  bannerInserted : Bool
  /-- The calls that were given their key. -/
  normalized : List RecordCall
  deriving DecidableEq, Repr

/-- How a patch ended. -/
inductive PatchOutcome where
  /-- The file was replaced. -/
  | patched (report : PatchReport)
  /-- The file would have been replaced. -/
  | wouldPatch (report : PatchReport)
  /-- The rules had nothing to change. -/
  | unchanged (file : Path)
  deriving DecidableEq, Repr

namespace PatchOutcome

/-- The file, as it was asked for. -/
def file : PatchOutcome → Path
  | .patched r => r.file
  | .wouldPatch r => r.file
  | .unchanged file => file

/-- What the rules change, if they do. -/
def report? : PatchOutcome → Option PatchReport
  | .patched r => some r
  | .wouldPatch r => some r
  | .unchanged _ => none

/-- The line that tells the outcome, without its end. -/
def message : PatchOutcome → Text
  | .patched r => "patched: ".toList ++ r.file
  | .wouldPatch r => "would patch: ".toList ++ r.file
  | .unchanged file => "no changes: ".toList ++ file

end PatchOutcome

/-- Why a patch fails. -/
inductive PatchError where
  /-- There is no target. -/
  | missing (path : Path)
  /-- The target cannot be read. -/
  | read (path : Path) (cause : FileFault)
  /-- The target cannot be replaced. -/
  | write (path : Path) (cause : FileFault)
  /-- The edits of the rules were refused. -/
  | edit (cause : EditError)
  /-- The target may not be patched. -/
  | workspace (cause : WorkspaceError)
  deriving DecidableEq, Repr

/-- The message for a file that cannot be written. -/
def writeFaultMessage (cause : FileFault) : Text := "File I/O error: ".toList ++ cause.message

/-- The message for a failed patch. -/
def PatchError.message : PatchError → Text
  | .missing path => "missing: ".toList ++ path
  | .read path cause => "failed to read ".toList ++ path ++ ": ".toList ++ cause.message
  | .write path cause =>
    "failed to write ".toList ++ path ++ ": ".toList ++ writeFaultMessage cause
  | .edit cause => "edit error: ".toList ++ cause.message
  | .workspace cause => cause.message

/-- What came of a patch. -/
structure PatchRun where
  /-- The outcome, or the error. -/
  answer : Except PatchError PatchOutcome
  /-- The tree afterwards. -/
  tree : FileTree
  /-- What happened on the way. -/
  events : List LogEvent

/-- How an event names the form of a call. -/
def CallForm.describe : CallForm → Text
  | .qualified n => "Qualified \x7b namespace: ".toList ++ Text.quoted n ++ " \x7d".toList
  | .method => "Method".toList

namespace PatchEvent

/-- An event of a patch. -/
def event (level : LogLevel) (message : String) (fields : List (Text × Text)) : LogEvent :=
  ⟨level, patchOrigin, message.toList, fields⟩

/-- The target was found. -/
def located (target : LocatedTarget) : LogEvent :=
  event .debug "located target"
    [("given".toList, target.given), ("canonical".toList, target.canonical)]

/-- The banner is put in, or is there. -/
def banner (inserted : Bool) : LogEvent :=
  event .debug (if inserted then "inserting banner" else "banner already present") []

/-- A call is given its key. -/
def normalizing (call : RecordCall) : LogEvent :=
  event .debug "normalizing record call"
    [("line".toList, Text.ofNat call.line), ("form".toList, call.form.describe)]

/-- The rules had nothing to change. -/
def unchanged (file : Path) : LogEvent := event .debug "no changes" [("file".toList, file)]

/-- The file was replaced. -/
def patched (r : PatchReport) : LogEvent :=
  event .info "patched"
    [("file".toList, r.file),
      ("banner".toList, if r.bannerInserted then "true".toList else "false".toList),
      ("record_calls".toList, Text.ofNat r.normalized.length)]

/-- What the rules did. -/
def transformed (rules : Rules) (t : Transformed) : List LogEvent :=
  (if rules.banner.isSome then [banner t.bannerInserted] else []) ++ t.normalized.map normalizing

end PatchEvent

namespace Rules

/-- What is to be written for a text of a file; nothing when the rules leave it alone. -/
def report (file : Path) (before : Text) (t : Transformed) : Option PatchReport :=
  if t.contents = before then none
  else some ⟨file, before, t.contents, t.bannerInserted, t.normalized⟩

/-- Write what a report says, after a last look at the workspace. -/
def commit (workspace : Option Workspace) (located : LocatedTarget) (r : PatchReport)
    (t : FileTree) (refused : Refusals := noRefusals) : Except PatchError Unit × FileTree :=
  let write : Except PatchError Unit × FileTree :=
    match t.replaceFile located.canonical (Text.encode r.patched) refused with
    | (.ok (), t) => (.ok (), t)
    | (.error cause, t) => (.error (.write located.given cause), t)
  match workspace with
  | none => write
  | some w =>
    match w.revalidate t located with
    | .error e => (.error (.workspace e), t)
    | .ok () => write

/-- Patch a file that was found. -/
def patchLocated (rules : Rules) (workspace : Option Workspace) (mode : PatchMode)
    (located : LocatedTarget) (t : FileTree) (refused : Refusals := noRefusals) : PatchRun :=
  match t.readText located.canonical with
  | .error cause => ⟨.error (.read located.given cause), t, []⟩
  | .ok before =>
    match rules.transform before with
    | .error e => ⟨.error (.edit e), t, []⟩
    | .ok result =>
      let events := PatchEvent.transformed rules result
      match report located.given before result with
      | none =>
        ⟨.ok (.unchanged located.given), t, events ++ [PatchEvent.unchanged located.given]⟩
      | some r =>
        match mode with
        | .dryRun => ⟨.ok (.wouldPatch r), t, events⟩
        | .write =>
          match commit workspace located r t refused with
          | (.error e, t) => ⟨.error e, t, events⟩
          | (.ok (), t) => ⟨.ok (.patched r), t, events ++ [PatchEvent.patched r]⟩

/-- Patch the file that a path leads to, wherever it is. -/
def patch (rules : Rules) (mode : PatchMode) (target : Path) (t : FileTree)
    (refused : Refusals := noRefusals) : PatchRun :=
  if t.pathExists target then
    match t.resolve target with
    | .error cause => ⟨.error (.read target cause), t, []⟩
    | .ok loc => rules.patchLocated none mode ⟨target, FileTree.pathOf loc⟩ t refused
  else ⟨.error (.missing target), t, []⟩

/-- Patch a target within a workspace. -/
def patchWithin (rules : Rules) (w : Workspace) (mode : PatchMode) (target : Path)
    (t : FileTree) (refused : Refusals := noRefusals) : PatchRun :=
  match w.locate t target with
  | .error e => ⟨.error (.workspace e), t, []⟩
  | .ok none => ⟨.error (.missing target), t, []⟩
  | .ok (some located) =>
    let run := rules.patchLocated (some w) mode located t refused
    { run with events := PatchEvent.located located :: run.events }

end Rules

end ClientPatch
