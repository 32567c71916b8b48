import ClientPatch.Path

/-!
# Arguments of the command line

The command is `apply` or `status`, each with options of its own. Arguments are read from the
left, and what is read first decides: a request for help or for the version is answered at once,
and so is the first argument that cannot be read. An option may be given once; a path must not
be empty and must not look like an option.
-/

namespace ClientPatch

/-- Where the target is to be found. -/
structure TargetOptions where
  /-- The file to patch. -/
  file : Option Path := none
  /-- The configuration file. -/
  config : Option Path := none
  /-- The workspace root. -/
  root : Option Path := none
  deriving DecidableEq, Repr

/-- What is to be done. -/
inductive Action where
  /-- Patch the target; or only tell what would be done; with the changed lines. -/
  | apply (dryRun diff : Bool)
  /-- Tell whether the target needs a patch. -/
  | status
  deriving DecidableEq, Repr

/-- A command with its options. -/
structure Command where
  /-- What is to be done. -/
  action : Action
  /-- Where the target is to be found. -/
  target : TargetOptions
  /-- Whether details are to be told. -/
  verbose : Bool
  deriving DecidableEq, Repr

/-- What the arguments ask for. -/
inductive Request where
  /-- To run a command. -/
  | run (command : Command)
  /-- To show help. -/
  | help
  /-- To show the version. -/
  | version
  deriving DecidableEq, Repr

/-- The subcommands. -/
inductive Subcommand where
  /-- To patch. -/
  | apply
  /-- To tell whether a patch is needed. -/
  | status
  deriving DecidableEq, Repr

/-- An option. -/
inductive OptionName where
  /-- The file to patch. -/
  | file
  /-- The configuration file. -/
  | config
  /-- The workspace root. -/
  | root
  /-- Not to write. -/
  | dryRun
  /-- To show the changed lines. -/
  | diff
  /-- To tell details. -/
  | verbose
  /-- To show help. -/
  | help
  /-- To show the version. -/
  | version
  deriving DecidableEq, Repr

namespace OptionName

/-- Whether an option has a path behind it. -/
def takesPath : OptionName → Bool
  | .file => true
  | .config => true
  | .root => true
  | _ => false

/-- Whether an option may stand at a level: before a subcommand, or behind one. -/
def isKnownTo : Option Subcommand → OptionName → Bool
  | _, .verbose => true
  | _, .help => true
  | none, o => o = .version
  | some .apply, o => o ≠ .version
  | some .status, o => o.takesPath

/-- The option with a long name. -/
def ofLong? (t : Text) : Option OptionName :=
  if t = "file".toList then some .file
  else if t = "config".toList then some .config
  else if t = "root".toList then some .root
  else if t = "dry-run".toList then some .dryRun
  else if t = "diff".toList then some .diff
  else if t = "verbose".toList then some .verbose
  else if t = "help".toList then some .help
  else if t = "version".toList then some .version
  else none

/-- The option with a letter. -/
def ofLetter? (c : Char) : Option OptionName :=
  if c = 'f' then some .file
  else if c = 'c' then some .config
  else if c = 'r' then some .root
  else if c = 'n' then some .dryRun
  else if c = 'd' then some .diff
  else if c = 'v' then some .verbose
  else if c = 'h' then some .help
  else if c = 'V' then some .version
  else none

end OptionName

/-- The options read so far at one level. -/
structure OptionsRead where
  /-- The options with a path, and their paths. -/
  target : TargetOptions := {}
  /-- The options without one. -/
  flags : List OptionName := []
  deriving DecidableEq, Repr

/-- What reading came to when it stops early. -/
inductive ReadingStop where
  /-- The arguments cannot be read. -/
  | usage
  /-- Help is asked for. -/
  | help
  /-- The version is asked for. -/
  | version
  deriving DecidableEq, Repr

namespace OptionsRead

/-- Take an option without a path in. -/
def addFlag (o : OptionsRead) (name : OptionName) : Except ReadingStop OptionsRead :=
  match name with
  | .help => .error .help
  | .version => .error .version
  | name => if o.flags.elem name then .error .usage else .ok { o with flags := name :: o.flags }

/-- Take an option with its path in. -/
def addPath (o : OptionsRead) (name : OptionName) (p : Path) : Except ReadingStop OptionsRead :=
  if p.isEmpty then .error .usage
  else
    match name with
    | .file =>
      if o.target.file.isSome then .error .usage
      else .ok { o with target := { o.target with file := some p } }
    | .config =>
      if o.target.config.isSome then .error .usage
      else .ok { o with target := { o.target with config := some p } }
    | .root =>
      if o.target.root.isSome then .error .usage
      else .ok { o with target := { o.target with root := some p } }
    | _ => .error .usage

end OptionsRead

/-- An argument after its kind. -/
inductive Argument where
  /-- Two dashes alone: no options from here on. -/
  | separator
  /-- A long option with what stands behind its equals sign, if there is one. -/
  | long (name : Text) (value : Option Text)
  /-- Letters behind a dash. -/
  | letters (letters : Text)
  /-- Anything else. -/
  | word (t : Text)
  deriving DecidableEq, Repr

/-- The kind of an argument. -/
def Argument.ofText : Text → Argument
  | ['-', '-'] => .separator
  | '-' :: '-' :: t =>
    .long (t.takeWhile (· ≠ '='))
      (match t.dropWhile (· ≠ '=') with
        | _ :: value => some value
        | [] => none)
  | '-' :: c :: t => .letters (c :: t)
  | t => .word t

/-- What letters behind one dash came to: options, the last of them perhaps without its path. -/
abbrev LettersRead := OptionsRead × Option OptionName

/-- Read the letters behind one dash. -/
def readLetters (level : Option Subcommand) : Text → OptionsRead →
    Except ReadingStop LettersRead
  | [], o => .ok (o, none)
  | c :: rest, o =>
    match OptionName.ofLetter? c with
    | none => .error .usage
    | some name =>
      if !name.isKnownTo level then .error .usage
      else if name.takesPath then
        match rest with
        | [] => .ok (o, some name)
        | '=' :: p => (o.addPath name p).map fun o => (o, none)
        | p => (o.addPath name p).map fun o => (o, none)
      else
        match o.addFlag name with
        | .error e => .error e
        | .ok o => readLetters level rest o

/-- Read one long option. -/
def readLong (level : Option Subcommand) (name : Text) (value : Option Text) (o : OptionsRead) :
    Except ReadingStop LettersRead :=
  match OptionName.ofLong? name with
  | none => .error .usage
  | some name =>
    if !name.isKnownTo level then .error .usage
    else if name.takesPath then
      match value with
      | some p => (o.addPath name p).map fun o => (o, none)
      | none => .ok (o, some name)
    else
      match value with
      | some _ => .error .usage
      | none => (o.addFlag name).map fun o => (o, none)

/-- Read the options of a subcommand. `pending` is an option that waits for its path. -/
def readOptions (s : Subcommand) : (pending : Option OptionName) → List Text → OptionsRead →
    Except ReadingStop OptionsRead
  | none, [], o => .ok o
  | some _, [], _ => .error .usage
  | some name, t :: rest, o =>
    match Argument.ofText t with
    | .word p =>
      match o.addPath name p with
      | .error e => .error e
      | .ok o => readOptions s none rest o
    | _ => .error .usage
  | none, t :: rest, o =>
    match Argument.ofText t with
    | .separator => if rest.isEmpty then .ok o else .error .usage
    | .word _ => .error .usage
    | .long name value =>
      match readLong (some s) name value o with
      | .error e => .error e
      | .ok (o, pending) => readOptions s pending rest o
    | .letters letters =>
      match readLetters (some s) letters o with
      | .error e => .error e
      | .ok (o, pending) => readOptions s pending rest o

/-- The command that the options make up. -/
def Command.ofOptions (s : Subcommand) (before o : OptionsRead) : Command where
  action :=
    match s with
    | .apply => .apply (o.flags.elem .dryRun) (o.flags.elem .diff)
    | .status => .status
  target := o.target
  verbose := before.flags.elem .verbose || o.flags.elem .verbose

/-- The subcommand with a name. -/
def Subcommand.ofText? (t : Text) : Option Subcommand :=
  if t = "apply".toList then some .apply
  else if t = "status".toList then some .status
  else none

/-- The name of the subcommand that shows help. -/
def helpName : Text := "help".toList

/-- Read what follows the request for help: at most one subcommand. -/
def readHelp : List Text → ReadingStop
  | [] => .help
  | [t] => if (Subcommand.ofText? t).isSome || t == helpName then .help else .usage
  | _ => .usage

/-- Read the arguments, behind the options `o` before any subcommand. -/
def readArguments : List Text → OptionsRead → Except ReadingStop Command
  | [], _ => .error .usage
  | t :: rest, o =>
    match Argument.ofText t with
    | .separator => .error .usage
    | .word name =>
      if name = helpName then .error (readHelp rest)
      else
        match Subcommand.ofText? name with
        | none => .error .usage
        | some s => (readOptions s none rest {}).map (.ofOptions s o)
    | .long name value =>
      match readLong none name value o with
      | .error e => .error e
      | .ok (o, _) => readArguments rest o
    | .letters letters =>
      match readLetters none letters o with
      | .error e => .error e
      | .ok (o, _) => readArguments rest o

/-- What the arguments ask for; nothing when they cannot be read. -/
def Request.ofArguments? (arguments : List Text) : Option Request :=
  match readArguments arguments {} with
  | .ok c => some (.run c)
  | .error .help => some .help
  | .error .version => some .version
  | .error .usage => none

end ClientPatch
