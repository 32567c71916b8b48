import ClientPatch.FileTree.Resolve

/-!
# Trees from sightings

A command needs only a small part of the files of a machine. A sighting tells what one path
leads to: its real path and what is there. What lies above a real path are directories. Sightings
of a path and of all paths on the way to it make up a tree in which the path leads to the same
place: where the real path of an entry is not the entry itself, the entry is a link to it.
-/

namespace ClientPatch

/-- What a path leads to. -/
structure Sighting where
  /-- The real path. -/
  real : Path
  /-- The bytes of the regular file that is there; none for a directory. -/
  bytes : Option Bytes

namespace Sighting

/-- The location of a real path. -/
def location (p : Path) : Location := (Text.splitOn '/' p).filter fun piece => !piece.isEmpty

/-- The node that was seen. Permission bits are not seen. -/
def node (s : Sighting) : Node :=
  match s.bytes with
  | some bytes => .file bytes 0o644 0
  | none => .directory {}

end Sighting

/-- The paths on the way to a path, the path itself last. -/
def pathsTo (p : Path) : List Path :=
  let ps := Path.parts p
  (List.range ps.length).map fun i => Path.ofParts (ps.take (i + 1))

namespace FileTree

/-- The locations on the way to a location, without the root and the location itself. -/
def locationsAbove (loc : Location) : List Location :=
  (List.range (loc.length - 1)).map fun i => loc.take (i + 1)

/-- The tree with one more sighting in it. -/
def observe (t : FileTree) (p : Path) (s : Sighting) : FileTree :=
  let real := Sighting.location s.real
  let above := (locationsAbove real).foldl (fun t loc => t.put loc (.directory {})) t
  let seen := above.put real s.node
  match t.entry p with
  | .error _ => seen
  | .ok (directory, name) =>
    if directory ++ [name] = real then seen else seen.put (directory ++ [name]) (.link s.real)

end FileTree

end ClientPatch
