import ClientPatch.FileTree.Resolve

/-!
# Replacing a file at once

New contents are first written to a file of their own in the directory of the target and then
renamed onto it, so that whoever looks at the target sees either the old contents or the new
ones. The steps are data: a run of them may stop behind any step, and a step that fails takes
the new file away again. A step fails where the tree does not allow it, or where the system refuses
it for a cause of its own.
-/

namespace ClientPatch

/-- A replacement that is about to be made. -/
structure Replacement where
  /-- The path whose entry is to be replaced. -/
  path : Path
  /-- Where the new file is written. -/
  temporary : Location
  /-- The new contents. -/
  bytes : Bytes
  /-- The permission bits to carry over, if the path leads to something. -/
  mode : Option Nat
  /-- The moment at which it is made. -/
  moment : Nat

/-- The steps of a replacement. -/
inductive ReplaceStep where
  /-- Create the new file, empty and for its owner only. -/
  | create
  /-- Write the contents. -/
  | fill
  /-- Wait until the contents are on the disk. -/
  | sync
  /-- Carry the permission bits over. -/
  | setMode
  /-- Rename the new file onto the path. -/
  | rename
  /-- Mark the file as written now. -/
  | stamp
  deriving DecidableEq, Repr

/-- The permission bits of a file that is for its owner only. -/
def ownerOnly : Nat := 0o600

/-- The steps in their order. -/
def replaceSteps : List ReplaceStep := [.create, .fill, .sync, .setMode, .rename, .stamp]

/-- The steps that the system refuses, with its causes. They do not show in the tree: a disk may be
full, or broken. -/
abbrev Refusals := ReplaceStep → Option FileFault

/-- Nothing is refused. -/
def noRefusals : Refusals := fun _ => none

/-- One step is refused for a cause. -/
def refusing (step : ReplaceStep) (cause : FileFault) : Refusals :=
  fun s => if s = step then some cause else none

namespace FileTree

/-- The number of characters of the path that a node stands for. -/
def targetLength : Node → Nat
  | .link target => target.length
  | _ => 0

/-- The number of characters of the names of locations and of what links there stand for. -/
def nameLength : List (Location × Node) → Nat
  | [] => 0
  | e :: es => e.1.flatten.length + targetLength e.2 + nameLength es

/-- A name that no entry has and that neither the path nor a link spells, because it is longer than
all of them together. -/
def freshName (t : FileTree) (p : Path) : Text :=
  List.replicate (nameLength t.entries + p.length + 1) '~'

/-- The permission bits of what a path leads to. -/
def modeAt? (t : FileTree) (p : Path) : Option Nat :=
  match t.nodeAt? p with
  | some (.file _ mode _) => some mode
  | some (.directory info) => some info.mode
  | _ => none

/-- Change the file at a location, if a file is there. -/
def updateFile (t : FileTree) (loc : Location)
    (change : Bytes → Nat → Nat → Node) : Except FileFault FileTree :=
  match t.node? loc with
  | some (.file bytes mode written) => .ok (t.put loc (change bytes mode written))
  | some (.directory _) => .error .isDirectory
  | some (.link _) => .error .invalid
  | none => .error .notFound

/-- Create an empty file at a location whose directory admits it. -/
def createFile (t : FileTree) (loc : Location) (moment : Nat) : Except FileFault FileTree :=
  match t.node? loc.dropLast with
  | some (.directory info) =>
    if info.isSealed then .error .notFound
    else
      match t.node? loc with
      | some _ => .error .taken
      | none => .ok (t.put loc (.file [] ownerOnly moment))
  | some _ => .error .notDirectory
  | none => .error .notFound

/-- Move the file at a location onto the entry that a path names. -/
def renameFile (t : FileTree) (source : Location) (p : Path) : Except FileFault FileTree :=
  match t.entry p with
  | .error e => .error e
  | .ok (directory, name) =>
    let target := directory ++ [name]
    match t.node? target with
    | some (.directory _) => .error .isDirectory
    | _ =>
      match t.node? source with
      | some node => .ok ((t.erase source).put target node)
      | none => .error .notFound

end FileTree

namespace Replacement

/-- The replacement of what a path names by way of a new file called `fresh`. The new file is to be
in the directory that the path without its last part leads to. -/
def planAs (fresh : Text) (t : FileTree) (p : Path) (bytes : Bytes) :
    Except FileFault Replacement :=
  match Path.parent? p with
  | none => .error .noParent
  | some parent =>
    let mode := t.modeAt? p
    match t.resolve (if parent.isEmpty then ['.'] else parent) with
    | .error e => .error e
    | .ok directory => .ok ⟨p, directory ++ [fresh], bytes, mode, t.now⟩

/-- The replacement of what a path names, under a name that nothing has. -/
def plan (t : FileTree) (p : Path) (bytes : Bytes) : Except FileFault Replacement :=
  planAs (t.freshName p) t p bytes

/-- The tree after one step. -/
def step (r : Replacement) (t : FileTree) : ReplaceStep → Except FileFault FileTree
  | .create => t.createFile r.temporary r.moment
  | .fill => t.updateFile r.temporary fun _ mode _ => .file r.bytes mode r.moment
  | .sync => .ok t
  | .setMode =>
    match r.mode with
    | none => .ok t
    | some mode => t.updateFile r.temporary fun bytes _ written => .file bytes mode written
  | .rename => t.renameFile r.temporary r.path
  | .stamp =>
    match t.resolve r.path with
    | .error e => .error e
    | .ok loc => t.updateFile loc fun bytes mode _ => .file bytes mode r.moment

/-- Make a step, unless the system refuses it. -/
def attempt (r : Replacement) (refused : Refusals) (t : FileTree) (s : ReplaceStep) :
    Except FileFault FileTree :=
  match refused s with
  | some e => .error e
  | none => r.step t s

/-- Make the steps one after another. A failure ends the run and takes the new file away, if
there is one by then. -/
def run (r : Replacement) (refused : Refusals) :
    List ReplaceStep → FileTree → Except FileFault Unit × FileTree
  | [], t => (.ok (), t)
  | s :: steps, t =>
    match r.attempt refused t s with
    | .ok t => run r refused steps t
    | .error e => (.error e, if s = .create then t else t.erase r.temporary)

end Replacement

/-- Replace what a path names by a file with new contents. -/
def FileTree.replaceFile (t : FileTree) (p : Path) (bytes : Bytes)
    (refused : Refusals := noRefusals) : Except FileFault Unit × FileTree :=
  match Replacement.plan t p bytes with
  | .error e => (.error e, t)
  | .ok r => r.run refused replaceSteps t

end ClientPatch
