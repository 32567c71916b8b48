import ClientPatch.FileTree.Resolve

/-!
# Workspaces

A workspace is a directory within which files may be patched. What counts is where a file
really is, all links followed: below the root, and in no directory that belongs to the package
manager or to version control. The spelling of a target never matters for that.
-/

namespace ClientPatch

/-- The names of directories whose contents are not to be patched. -/
def forbiddenNames : List Text := ["node_modules".toList, ".git".toList]

/-- Why a path is refused. -/
inductive WorkspaceError where
  /-- The real location is not below the root. -/
  | outside (path workspace : Path)
  /-- The real location is in a directory that is not to be patched. -/
  | forbidden (path : Path) (name : Text)
  /-- There is no real location. -/
  | unresolved (path : Path) (cause : FileFault)
  deriving DecidableEq, Repr

/-- The message for a refused path. -/
def WorkspaceError.message : WorkspaceError → Text
  | .outside path workspace =>
    "Path is outside workspace: ".toList ++ path ++ " (workspace: ".toList ++ workspace ++ [')']
  | .forbidden path name =>
    "Path is inside ".toList ++ name ++ "/: ".toList ++ path
  | .unresolved path cause =>
    "Failed to resolve ".toList ++ path ++ ": ".toList ++ cause.message

/-- A workspace by the real location of its root. -/
structure Workspace where
  /-- The root. -/
  root : Location
  deriving DecidableEq, Repr

/-- A file that was found. -/
structure LocatedTarget where
  /-- The path as it was asked for. -/
  given : Path
  /-- The path of the real location. -/
  canonical : Path
  deriving DecidableEq, Repr

namespace Workspace

/-- The workspace whose root a path leads to. -/
def ofPath (t : FileTree) (p : Path) : Except WorkspaceError Workspace :=
  match t.resolve p with
  | .error cause => .error (.unresolved p cause)
  | .ok loc => .ok ⟨loc⟩

/-- The path of the root. -/
def rootPath (w : Workspace) : Path := FileTree.pathOf w.root

/-- A target as seen from the root; an absolute target is seen from nowhere. -/
def pathTo (w : Workspace) (target : Path) : Path := Path.join w.rootPath target

/-- The first name that is not to be patched in. -/
def forbiddenName? (names : List Text) : Option Text := names.find? forbiddenNames.elem

/-- Whether a real location may be patched. -/
def permit (w : Workspace) (loc : Location) : Except WorkspaceError Unit :=
  if w.root.isPrefixOf loc then
    match forbiddenName? (loc.drop w.root.length) with
    | some name => .error (.forbidden (FileTree.pathOf loc) name)
    | none => .ok ()
  else .error (.outside (FileTree.pathOf loc) w.rootPath)

/-- The real location that a path leads to, if it may be patched. -/
def check (w : Workspace) (t : FileTree) (p : Path) : Except WorkspaceError Location :=
  match t.resolve p with
  | .error cause => .error (.unresolved p cause)
  | .ok loc =>
    match w.permit loc with
    | .error e => .error e
    | .ok () => .ok loc

/-- Find a target. A target that leads to nothing is missing, wherever it would be. -/
def locate (w : Workspace) (t : FileTree) (target : Path) :
    Except WorkspaceError (Option LocatedTarget) :=
  let p := w.pathTo target
  if t.pathExists p then
    match w.check t p with
    | .error e => .error e
    | .ok loc => .ok (some ⟨target, FileTree.pathOf loc⟩)
  else .ok none

/-- Check a target again: the path of its real location must still lead to itself. -/
def revalidate (w : Workspace) (t : FileTree) (located : LocatedTarget) :
    Except WorkspaceError Unit :=
  match w.check t located.canonical with
  | .error e => .error e
  | .ok loc =>
    if Path.parts (FileTree.pathOf loc) = Path.parts located.canonical then .ok ()
    else .error (.outside (FileTree.pathOf loc) w.rootPath)

end Workspace

end ClientPatch
