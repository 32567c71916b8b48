import ClientPatch.Edit

/-!
# Record calls and their key

A record call is an occurrence of `.record(`. It is qualified when a name stands right before
the point, and a method call on some other expression otherwise. Its key is written when the
arguments begin with the key type and a comma, blanks aside; the rule puts the key type in
front of the arguments of every other call.
-/

namespace ClientPatch

/-- What the point of a record call stands after. -/
inductive CallForm where
  /-- A name. -/
  | qualified (namespaceName : Text)
  /-- Anything else. -/
  | method
  deriving DecidableEq, Repr

/-- A record call by its place in a source. -/
structure RecordCall where
  /-- The byte of the point. -/
  offset : Nat
  /-- The byte after the opening parenthesis. -/
  argsStart : Nat
  /-- The line of the point, counted from one. -/
  line : Nat
  /-- What the point stands after. -/
  form : CallForm
  deriving DecidableEq, Repr

/-- The characters of a record call. -/
def recordToken : Text := ['.', 'r', 'e', 'c', 'o', 'r', 'd', '(']

/-- The characters of a record call take eight bytes. -/
theorem size_recordToken : recordToken.size = 8 := rfl

/-- The letters, digits and signs of a name. -/
def isNameChar (c : Char) : Bool := c.isAlphanum || c == '_' || c == '$'

/-- The name that ends after `c`, last character first, where `name` ended before it. A name
does not begin with a digit. -/
def extendName (name : Text) (c : Char) : Text :=
  if !isNameChar c then []
  else if name.isEmpty && c.isDigit then []
  else c :: name

/-- The form of a call whose point comes after a name, last character first. -/
def CallForm.after (name : Text) : CallForm :=
  if name.isEmpty then .method else .qualified name.reverse

/-- A record call with the text after its parenthesis. -/
structure CallSite where
  /-- The call. -/
  call : RecordCall
  /-- The source from the arguments on. -/
  rest : Text
  deriving DecidableEq, Repr

/-- Where a scan stands in a source. -/
structure Cursor where
  /-- The bytes before. -/
  offset : Nat
  /-- The line, counted from one. -/
  line : Nat
  /-- The name that ends here, last character first. -/
  name : Text
  deriving DecidableEq, Repr

namespace Cursor

/-- The start of a source. -/
def start : Cursor := ⟨0, 1, []⟩

/-- The place after one more character. -/
def next (k : Cursor) (c : Char) : Cursor :=
  ⟨k.offset + c.utf8Size, if c = '\n' then k.line + 1 else k.line, extendName k.name c⟩

/-- The call whose point stands here. -/
def call (k : Cursor) : RecordCall :=
  ⟨k.offset, k.offset + recordToken.size, k.line, .after k.name⟩

end Cursor

/-- The record calls of a source that continues at `k`, in order. -/
def callSitesFrom (k : Cursor) : Text → List CallSite
  | [] => []
  | c :: rest =>
    let later := callSitesFrom (k.next c) rest
    match Text.dropPrefix? recordToken (c :: rest) with
    | some arguments => ⟨k.call, arguments⟩ :: later
    | none => later

/-- The record calls of a source, in order. -/
def callSites (source : Text) : List CallSite := callSitesFrom .start source

/-- The places of the record calls of a source, in order. -/
def recordCalls (source : Text) : List RecordCall := (callSites source).map (·.call)

/-- Whether the arguments of a call begin with the key type and a comma. Blanks may come before
either. -/
def hasKey (keyType arguments : Text) : Bool :=
  match Text.dropPrefix? keyType (Text.trimStart arguments) with
  | none => false
  | some rest => (Text.trimStart rest).head? == some ','

/-- The rule that writes a key type into the record calls without it. -/
structure RecordKey where
  /-- The key type, without blanks at its ends. -/
  keyType : Text
  deriving DecidableEq, Repr

namespace RecordKey

/-- The rule for a key type; the blanks at its ends are dropped. -/
def ofText (keyType : Text) : RecordKey := ⟨Text.trim keyType⟩

/-- The rule that keys records by strings. -/
def standard : RecordKey := ofText "z.string()".toList

/-- What the rule puts in front of the arguments. -/
def insertion (r : RecordKey) : Text := r.keyType ++ [',', ' ']

/-- The edit that gives a call its key. -/
def edit (r : RecordKey) (call : RecordCall) : Edit := Edit.insert call.argsStart r.insertion

/-- The calls without the key, in order. -/
def missing (r : RecordKey) (source : Text) : List RecordCall :=
  ((callSites source).filter fun s => !hasKey r.keyType s.rest).map (·.call)

/-- The calls without the key, each with the edit that gives it one. -/
def plan (r : RecordKey) (source : Text) : List (RecordCall × Edit) :=
  (r.missing source).map fun call => (call, r.edit call)

end RecordKey

end ClientPatch
