import ClientPatch.FileTree.Resolve

/-!
# Changes by others

How a tree changes under other hands: files written, directories made, links set, entries
removed and renamed, and the working directory left for another one. A renamed or removed
directory takes what lies in it along, and with it the working directory.
-/

namespace ClientPatch

namespace FileTree

/-- The path of what lies below `a` when `a` is renamed to `b`. -/
def relocate (a b loc : Location) : Location :=
  if a.isPrefixOf loc then b ++ loc.drop a.length else loc

/-- The tree without a location and all below it. -/
def eraseBelow (t : FileTree) (a : Location) : FileTree where
  entries := t.entries.filter fun e => !a.isPrefixOf e.1
  workingDirectory := t.workingDirectory.filter fun loc => !a.isPrefixOf loc
  root := t.root

/-- Change the directory that a path leads to into the working directory. -/
def enterDirectory (t : FileTree) (p : Path) : Except FileFault FileTree :=
  match t.resolve p with
  | .error e => .error e
  | .ok loc =>
    match t.node? loc with
    | some (.directory _) => .ok { t with workingDirectory := some loc }
    | _ => .error .notDirectory

/-- Make the directory that a path names, unless something is there already. -/
def makeDirectory (t : FileTree) (p : Path) : Except FileFault FileTree :=
  match t.resolve p with
  | .ok _ => .ok t
  | .error .notFound =>
    match t.entry p with
    | .error e => .error e
    | .ok (directory, name) => .ok (t.put (directory ++ [name]) (.directory {}))
  | .error e => .error e

/-- Make the directories of the parts `ps`, one below the other, behind the parts `made`. -/
def makeBelow (made : List PathPart) : List PathPart → FileTree → Except FileFault FileTree
  | [], t => .ok t
  | part :: ps, t =>
    match t.makeDirectory (Path.ofParts (made ++ [part])) with
    | .error e => .error e
    | .ok t => makeBelow (made ++ [part]) ps t

/-- Make a directory and the directories above it. -/
def makeDirectories (t : FileTree) (p : Path) : Except FileFault FileTree :=
  makeBelow [] (Path.parts p) t

/-- Make the directories above the entry that a path names. -/
def makeParents (t : FileTree) (p : Path) : Except FileFault FileTree :=
  match Path.parent? p with
  | none => .ok t
  | some parent => t.makeDirectories parent

/-- Write a file, new or not, with permission bits of its own, and date it back to the first
moment. -/
def writeFile (t : FileTree) (p : Path) (bytes : Bytes) (mode : Nat) :
    Except FileFault FileTree :=
  match t.makeParents p with
  | .error e => .error e
  | .ok t =>
    match t.resolve p with
    | .ok loc =>
      if (t.node? loc).any Node.isDirectory then .error .isDirectory
      else .ok (t.put loc (.file bytes mode 0))
    | .error .notFound =>
      match t.entry p with
      | .error e => .error e
      | .ok (directory, name) => .ok (t.put (directory ++ [name]) (.file bytes mode 0))
    | .error e => .error e

/-- Set a link. -/
def makeLink (t : FileTree) (p : Path) (target : Path) : Except FileFault FileTree :=
  match t.makeParents p with
  | .error e => .error e
  | .ok t =>
    match t.entry p with
    | .error e => .error e
    | .ok (directory, name) =>
      match t.node? (directory ++ [name]) with
      | some _ => .error .taken
      | none => .ok (t.put (directory ++ [name]) (.link target))

/-- Remove an entry with all below it. A link is removed, not what it stands for. -/
def remove (t : FileTree) (p : Path) : Except FileFault FileTree :=
  match t.entry p with
  | .error e => .error e
  | .ok (directory, name) =>
    match t.node? (directory ++ [name]) with
    | none => .error .notFound
    | some _ => .ok (t.eraseBelow (directory ++ [name]))

/-- Rename an entry with all below it, in place of what has the new name. A directory cannot be
renamed into itself. -/
def rename (t : FileTree) (p q : Path) : Except FileFault FileTree :=
  match t.entry p, t.entry q with
  | .error e, _ => .error e
  | _, .error e => .error e
  | .ok (d, m), .ok (d', n) =>
    let a := d ++ [m]
    let b := d' ++ [n]
    if (t.node? a).isNone then .error .notFound
    else if a = b then .ok t
    else if a.isPrefixOf b then .error .invalid
    else
      let cleared := t.eraseBelow b
      .ok { cleared with
        entries := cleared.entries.map fun e => (relocate a b e.1, e.2)
        workingDirectory := cleared.workingDirectory.map (relocate a b) }

/-- Whether a name comes before another one, or is the same: by the first character in which
they differ, or the shorter one first. -/
def nameBefore : Text → Text → Bool
  | [], _ => true
  | _ :: _, [] => false
  | a :: as, b :: bs => a.toNat < b.toNat || (a == b && nameBefore as bs)

/-- The order in which a tree is listed: a directory before what it holds, and entries of one
directory by their names. -/
def listedBefore : Location → Location → Bool
  | [], _ => true
  | _ :: _, [] => false
  | a :: as, b :: bs => if a = b then listedBefore as bs else nameBefore a b

/-- What lies below a directory, by locations seen from there, in the order of listing. -/
def listing (t : FileTree) (root : Location) : List (Location × Node) :=
  let below := t.entries.filter fun e => root.isPrefixOf e.1 && root.length < e.1.length
  (below.map fun e => (e.1.drop root.length, e.2)).mergeSort fun a b => listedBefore a.1 b.1

end FileTree

end ClientPatch
