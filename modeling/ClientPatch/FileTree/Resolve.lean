import ClientPatch.FileTree
import ClientPatch.Path

/-!
# Where a path leads

A path is walked from the root or from the working directory, one move at a time. A symbolic
link on the way is replaced by the path that it stands for, at most forty times. A link at the
very end is followed or not, as the caller asks. The walk ends at a location that holds
something, or names the cause why there is none.
-/

namespace ClientPatch

/-- Why the file system refuses a request. -/
inductive FileFault where
  /-- Nothing is there. -/
  | notFound
  /-- The device fails. -/
  | inputOutput
  /-- The request is not permitted. -/
  | denied
  /-- A directory was busy, or cannot be named that way. -/
  | busy
  /-- The name is taken. -/
  | taken
  /-- A path goes on behind something that is no directory. -/
  | notDirectory
  /-- A directory is where a file is asked for. -/
  | isDirectory
  /-- The request makes no sense. -/
  | invalid
  /-- The device is full. -/
  | noSpace
  /-- A name or a path is too long. -/
  | nameTooLong
  /-- Too many links were met. -/
  | tooManyLinks
  /-- A path holds the null character. -/
  | nullInPath
  /-- The bytes of a file are no text. -/
  | notText
  /-- A path names no entry of a directory. -/
  | noParent
  deriving DecidableEq, Repr

/-- The message for a cause. -/
def FileFault.message : FileFault → Text
  | .notFound => "No such file or directory (os error 2)".toList
  | .inputOutput => "Input/output error (os error 5)".toList
  | .denied => "Permission denied (os error 13)".toList
  | .busy => "Device or resource busy (os error 16)".toList
  | .taken => "File exists (os error 17)".toList
  | .notDirectory => "Not a directory (os error 20)".toList
  | .isDirectory => "Is a directory (os error 21)".toList
  | .invalid => "Invalid argument (os error 22)".toList
  | .noSpace => "No space left on device (os error 28)".toList
  | .nameTooLong => "File name too long (os error 36)".toList
  | .tooManyLinks => "Too many levels of symbolic links (os error 40)".toList
  | .nullInPath => "file name contained an unexpected NUL byte".toList
  | .notText => "stream did not contain valid UTF-8".toList
  | .noParent => "Path has no parent directory".toList

/-- One move of a walk. -/
inductive Move where
  /-- Stay, which only a directory allows. -/
  | stay
  /-- Go to the directory above. -/
  | up
  /-- Go to an entry. -/
  | enter (name : Text)
  deriving DecidableEq, Repr

namespace Path

/-- The move of a piece between slashes; an empty piece is none. -/
def move? (piece : Text) : Option Move :=
  if piece = [] then none
  else if piece = ['.'] then some .stay
  else if piece = ['.', '.'] then some .up
  else some (.enter piece)

/-- The moves of pieces between slashes. Behind a slash at the end stands one more piece, an
empty one, and it asks for a directory. -/
def movesOf : List Text → List Move
  | [] => []
  | [piece] => [(move? piece).getD .stay]
  | piece :: pieces => (move? piece).toList ++ movesOf pieces

/-- The moves of a path. -/
def moves (p : Path) : List Move := movesOf (Text.splitOn '/' p)

end Path

namespace FileTree

/-- The greatest number of links on a walk. -/
def maxLinks : Nat := 40

/-- The greatest number of bytes of a name. -/
def maxName : Nat := 255

/-- The greatest number of bytes of a path. -/
def maxPath : Nat := 4095

/-- Where a walk pauses. -/
inductive Stop where
  /-- At its end. -/
  | reached (loc : Location)
  /-- At a link in a directory, with the moves behind it. -/
  | atLink (directory : Location) (target : Path) (rest : List Move)
  deriving DecidableEq

/-- Walk from a directory to the end, or to the first link that is to be followed. -/
def walkToLink (t : FileTree) (followLast : Bool) : Location → List Move → Except FileFault Stop
  | loc, [] => .ok (.reached loc)
  | loc, .stay :: rest => walkToLink t followLast loc rest
  | loc, .up :: rest => walkToLink t followLast loc.dropLast rest
  | loc, .enter name :: rest =>
    if Text.size name > maxName then .error .nameTooLong
    else
      match t.node? (loc ++ [name]) with
      | none => .error .notFound
      | some (.directory _) => walkToLink t followLast (loc ++ [name]) rest
      | some (.file ..) =>
        if rest.isEmpty then .ok (.reached (loc ++ [name])) else .error .notDirectory
      | some (.link target) =>
        if rest.isEmpty && !followLast then .ok (.reached (loc ++ [name]))
        else .ok (.atLink loc target rest)

/-- Walk from a directory to the end, over at most `links` links. -/
def walk (t : FileTree) (followLast : Bool) : (links : Nat) → Location → List Move →
    Except FileFault Location
  | links, loc, moves =>
    match walkToLink t followLast loc moves with
    | .error e => .error e
    | .ok (.reached loc) => .ok loc
    | .ok (.atLink directory target rest) =>
      match links with
      | 0 => .error .tooManyLinks
      | links + 1 =>
        walk t followLast links (if Path.isAbsolute target then [] else directory)
          (Path.moves target ++ rest)

/-- The directory that a path begins at. -/
def base (t : FileTree) (p : Path) : Except FileFault Location :=
  if Path.isAbsolute p then .ok []
  else
    match t.workingDirectory with
    | some loc => .ok loc
    | none => .error .notFound

/-- The location that a path leads to. -/
def resolveBy (t : FileTree) (followLast : Bool) (p : Path) : Except FileFault Location :=
  if p.elem (Char.ofNat 0) then .error .nullInPath
  else if p.isEmpty then .error .notFound
  else if Text.size p > maxPath then .error .nameTooLong
  else
    match t.base p with
    | .error e => .error e
    | .ok loc => t.walk followLast maxLinks loc (Path.moves p)

/-- The real location of a path, all links followed. -/
def resolve (t : FileTree) (p : Path) : Except FileFault Location := t.resolveBy true p

/-- What a path leads to, all links followed. -/
def nodeAt? (t : FileTree) (p : Path) : Option Node :=
  match t.resolve p with
  | .ok loc => t.node? loc
  | .error _ => none

/-- Whether a path leads to something. -/
def pathExists (t : FileTree) (p : Path) : Bool := (t.resolve p).isOk

/-- Whether a path leads to a regular file. -/
def isFile (t : FileTree) (p : Path) : Bool :=
  match t.nodeAt? p with
  | some (.file ..) => true
  | _ => false

/-- The text of the file that a path leads to. -/
def readText (t : FileTree) (p : Path) : Except FileFault Text :=
  match t.resolve p with
  | .error e => .error e
  | .ok loc =>
    match t.node? loc with
    | some (.file bytes _ _) =>
      match Text.decode? bytes with
      | some text => .ok text
      | none => .error .notText
    | some (.directory _) => .error .isDirectory
    | _ => .error .notFound

/-- The pieces of a path before its last name, that name, and whether slashes follow it. -/
def splitEntry (p : Path) : Path × Text × Bool :=
  let bare := (p.reverse.dropWhile (· == '/')).reverse
  let name := (bare.reverse.takeWhile (· ≠ '/')).reverse
  (bare.take (bare.length - name.length), name, bare.length < p.length)

/-- The directory entry that a path names, whatever is there: a directory and a name in it. -/
def entry (t : FileTree) (p : Path) : Except FileFault (Location × Text) :=
  let (front, name, slashed) := splitEntry p
  if p.elem (Char.ofNat 0) then .error .invalid
  else if p.isEmpty then .error .notFound
  else if Text.size p > maxPath then .error .nameTooLong
  else
    match t.base p with
    | .error e => .error e
    | .ok loc =>
      match t.walk true maxLinks loc (Path.moves front) with
      | .error e => .error e
      | .ok directory =>
        if name = [] ∨ name = ['.'] ∨ name = ['.', '.'] then .error .busy
        else if Text.size name > maxName then .error .nameTooLong
        else if slashed then .error .notDirectory
        else .ok (directory, name)

end FileTree

end ClientPatch
