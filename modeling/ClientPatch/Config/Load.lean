import ClientPatch.Config.Decode
import ClientPatch.FileTree.Resolve

/-!
# Finding and loading a configuration

A configuration comes from a given file, else from the file of the usual name in a directory,
else it is the default one. Every way that reads a text goes through the same checks.
-/

namespace ClientPatch

/-- Why no configuration was loaded. -/
inductive ConfigError where
  /-- The file cannot be read. -/
  | read (path : Path) (cause : FileFault)
  /-- The text is no configuration to work with. `origin` is where it comes from. -/
  | refused (origin : Text) (fault : ConfigFault)
  deriving DecidableEq, Repr

namespace ConfigError

/-- Where the configuration was to come from. -/
def origin : ConfigError → Text
  | .read path _ => path
  | .refused origin _ => origin

/-- The message for an error. -/
def message : ConfigError → Text
  | .read path _ => "cannot read config ".toList ++ path
  | .refused origin .notToml => "config ".toList ++ origin ++ " is not valid TOML".toList
  | .refused origin (.invalid _) => "config ".toList ++ origin ++ " rejected".toList

/-- The message for what lies behind an error; nothing is told of a text that is no document. -/
def reason : ConfigError → Text
  | .read _ cause => cause.message
  | .refused _ .notToml => []
  | .refused _ (.invalid issues) => ConfigIssue.messages issues

end ConfigError

namespace Config

/-- The usual name of a configuration file. -/
def fileName : Text := "zod-client-patcher.toml".toList

/-- The origin of a text that comes from no file. -/
def inlineOrigin : Text := "<inline>".toList

/-- The valid configuration that a text describes, with its origin for the errors. -/
def ofText (origin : Text) (t : Text) : Except ConfigError Config :=
  match parse t with
  | .ok c => .ok c
  | .error fault => .error (.refused origin fault)

/-- The configuration in a file. -/
def load (t : FileTree) (p : Path) : Except ConfigError Config :=
  match t.readText p with
  | .error cause => .error (.read p cause)
  | .ok text => ofText p text

/-- The configuration file of the usual name in a directory, if there is one. -/
def discover (t : FileTree) (directory : Path) : Option Path :=
  let p := Path.join directory fileName
  if t.isFile p then some p else none

/-- The given configuration, else the one found in a directory, else the default one; with the
path of the file it comes from. -/
def loadOrDefault (t : FileTree) (given : Option Path) (directory : Path) :
    Except ConfigError (Config × Option Path) :=
  match given <|> discover t directory with
  | none => .ok ({}, none)
  | some p =>
    match load t p with
    | .error e => .error e
    | .ok c => .ok (c, some p)

end Config

end ClientPatch
