import ClientPatch.Text

/-!
# Paths

A path is kept as it was spelled, because messages show it so. Two paths are compared by their
parts, in which doubled slashes and inner `.` parts do not count, while `..` stays what it is.
-/

namespace ClientPatch

/-- A path as it was spelled. -/
abbrev Path := Text

/-- A part of a path. -/
inductive PathPart where
  /-- The root of all paths. -/
  | root
  /-- The directory itself; only at the start of a path. -/
  | here
  /-- The directory above. -/
  | up
  /-- A name. -/
  | name (n : Text)
  deriving DecidableEq, Repr

/-- The spelling of one part; the root is spelled by the slash behind it. -/
def PathPart.spelling : PathPart → Text
  | .root => []
  | .here => ['.']
  | .up => ['.', '.']
  | .name n => n

namespace Path

/-- Whether the path begins at the root. -/
def isAbsolute (p : Path) : Bool := p.head? == some '/'

/-- The part that a piece between slashes stands for, if it counts. -/
def part? (piece : Text) : Option PathPart :=
  if piece = [] ∨ piece = ['.'] then none
  else if piece = ['.', '.'] then some .up
  else some (.name piece)

/-- The parts of a path. -/
def parts (p : Path) : List PathPart :=
  let pieces := Text.splitOn '/' p
  let front : List PathPart :=
    if isAbsolute p then [.root] else if pieces.head? = some ['.'] then [.here] else []
  front ++ pieces.filterMap part?

/-- The path `q` as seen from `p`: `q` itself when it is absolute, else both with one slash
between them. -/
def join (p q : Path) : Path :=
  if isAbsolute q then q
  else if p.isEmpty || p.getLast? == some '/' then p ++ q
  else p ++ '/' :: q

/-- The spelling of parts that do not begin at the root. -/
def ofRelative (ps : List PathPart) : Path := Text.joinWith ['/'] (ps.map (·.spelling))

/-- The spelling of parts. -/
def ofParts : List PathPart → Path
  | .root :: ps => '/' :: ofRelative ps
  | ps => ofRelative ps

/-- The path without its last part; nothing for the root and for the empty path. -/
def parent? (p : Path) : Option Path :=
  match (parts p).getLast? with
  | none => none
  | some .root => none
  | some _ => some (ofParts (parts p).dropLast)

end Path

end ClientPatch
