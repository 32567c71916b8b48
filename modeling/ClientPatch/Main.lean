import ClientPatch.Command.Run
import ClientPatch.Command.Observe

/-!
# The program

Reads the arguments, the environment and the few files that the command looks at, runs the
command on the tree of them, and writes the file that it replaced. The file is written in place,
which keeps its permission bits.
-/

namespace ClientPatch

/-- What a path leads to on this machine, if it leads to something. -/
def look (p : Path) : IO (Option Sighting) := do
  try
    let real ← IO.FS.realPath (String.ofList p)
    let bytes ← try some <$> IO.FS.readBinFile real catch _ => pure none
    return some ⟨real.toString.toList, bytes.map (·.data.toList)⟩
  catch _ => return none

/-- The tree with what is seen on the way to a path. -/
def lookAlong (t : FileTree) (p : Path) : IO FileTree := do
  let mut tree := t
  for q in pathsTo p do
    if let some s ← look q then tree := tree.observe q s
  return tree

/-- The tree of what a command looks at. -/
def lookFor (c : Command) (s : Surroundings) : IO FileTree := do
  let directory := (← IO.currentDir).toString.toList
  let t : FileTree := { entries := [], workingDirectory := some (Sighting.location directory) }
  let t ← lookAlong t directory
  let t ← lookAlong t (c.target.config.getD (Path.join directory Config.fileName))
  match Config.loadOrDefault t c.target.config directory with
  | .error _ => return t
  | .ok (config, _) =>
    let root := (c.target.root <|> config.target.root).getD directory
    let t ← lookAlong t root
    match Workspace.ofPath t root with
    | .error _ => return t
    | .ok w =>
      lookAlong t (w.pathTo (chooseTarget c.target.file s.target config.target.file))

/-- Write the files whose bytes differ between two trees. -/
def writeChanges (before after : FileTree) : IO Unit := do
  for (loc, node) in after.entries do
    if let .file bytes _ _ := node then
      unless before.node? loc == some node do
        IO.FS.writeBinFile (String.ofList (FileTree.pathOf loc)) ⟨bytes.toArray⟩

/-- The surroundings that the environment and the terminal make. -/
def surroundings : IO Surroundings := do
  let ask (name : String) : IO (Option Text) := do
    return (← IO.getEnv name).map (·.toList)
  let forced := (← IO.getEnv "CLICOLOR_FORCE").any (· ≠ "0")
  let unwanted := (← IO.getEnv "NO_COLOR").any (· ≠ "0")
  let terminal ← (← IO.getStdout).isTty
  return {
    target := ← ask "ZOD_CLIENT_PATCHER_TARGET"
    logFilter := ← ask "RUST_LOG"
    colors := forced || (terminal && !unwanted) }

/-- Run what the arguments ask for. -/
def runProgram (arguments : List String) : IO UInt32 := do
  match Request.ofArguments? (arguments.map (·.toList)) with
  | none =>
    IO.eprint (String.ofList usageText)
    return 2
  | some .help =>
    IO.print (String.ofList usageText)
    return 0
  | some .version =>
    IO.print (String.ofList versionLine)
    return 0
  | some (.run c) =>
    let s ← surroundings
    let t ← lookFor c s
    let r := c.run s t
    try writeChanges t r.tree
    catch e =>
      IO.eprintln s!"error: {e}"
      return 1
    IO.print (String.ofList r.stdout)
    IO.eprint (String.ofList r.stderr)
    return r.status.toUInt32

end ClientPatch

/-- The program. -/
def main (arguments : List String) : IO UInt32 := ClientPatch.runProgram arguments
