import ClientPatch.Toml.Value
import ClientPatch.Toml.Number
import ClientPatch.Toml.Moment
import ClientPatch.Toml.Quotation

/-!
# Reading a configuration document

A document is a sequence of lines: blank ones, headers that announce a table, and assignments
to the table announced last. Arrays and inline tables may run over several lines and nest to a
limited depth. Reading answers the finished tree or nothing; each reader gives what follows the
piece it read.
-/

namespace ClientPatch.Toml

/-- How deep arrays and inline tables may nest. -/
def maxDepth : Nat := 80

/-- The text behind spaces and tabs. -/
def skipSpaces (t : Text) : Text := t.dropWhile isSpace

/-- The text behind a comment, if one stands at the start. -/
def skipComment : Text → Text
  | '#' :: t => t.dropWhile isPlainChar
  | t => t

/-- What follows the rest of a line: spaces, a comment, and a line end or the end of the
document. -/
def afterLine? (t : Text) : Option Text :=
  match skipComment (skipSpaces t) with
  | [] => some []
  | t => afterLineEnd? t

/-- The text behind spaces, comments and line ends; `fuel` bounds the number of lines. -/
def skipLines : (fuel : Nat) → Text → Option Text
  | 0, _ => none
  | fuel + 1, t =>
    match skipSpaces t with
    | '#' :: t =>
      match afterLineEnd? (t.dropWhile isPlainChar) with
      | some t => skipLines fuel t
      | none => none
    | t =>
      match afterLineEnd? t with
      | some t => skipLines fuel t
      | none => some t

/-- The text behind spaces, comments and line ends. -/
def skipBlank (t : Text) : Option Text := skipLines (t.length + 1) t

/-- The characters of a key without quotes. -/
def isBareChar (c : Char) : Bool := c.isAlphanum || c == '_' || c == '-'

/-- One part of a key. -/
def keyPart? (t : Text) : Option (Text × Text) :=
  match t with
  | c :: _ =>
    if c = '"' ∨ c = '\'' then shortQuotation? t
    else if isBareChar c then some (t.takeWhile isBareChar, t.dropWhile isBareChar)
    else none
  | [] => none

/-- A key of at most `fuel` parts with points between them. -/
def keyParts? : (fuel : Nat) → Text → Option (List Text × Text)
  | 0, _ => none
  | fuel + 1, t =>
    match keyPart? (skipSpaces t) with
    | none => none
    | some (part, t) =>
      match skipSpaces t with
      | '.' :: t => (keyParts? fuel t).map fun p => (part :: p.1, p.2)
      | t => some ([part], t)

/-- A key with its parts. -/
def key? (t : Text) : Option (List Text × Text) := keyParts? maxDepth t

/-- Change a table by way of a key: its last part, inside the table of the parts before. -/
def atKey (keys : List Text) (change : (path : List Text) → (last : Text) → Option Entries) :
    Option Entries :=
  match keys.getLast? with
  | none => none
  | some last => change keys.dropLast last

/-- The characters that end a value without quotes. -/
def isDelimiter (c : Char) : Bool :=
  isSpace c || c == '\n' || c == '\r' || c == ',' || c == ']' || c == '}' || c == '#'

/-- The value without quotes that a text writes. -/
def plainValue? (t : Text) : Option Value :=
  if t = "true".toList then some (.boolean true)
  else if t = "false".toList then some (.boolean false)
  else
    match integer? t with
    | some n => some (.integer n)
    | none =>
      if isMoment t then some (.moment t)
      else if isFloat t then some (.float t)
      else none

/-- The spelling of a value without quotes. One space may stand between a date and a time. -/
def plainSpelling (t : Text) : Text × Text :=
  let word := t.takeWhile fun c => !isDelimiter c
  let rest := t.dropWhile fun c => !isDelimiter c
  match rest with
  | ' ' :: d :: rest' =>
    if afterDate? word = some [] ∧ d.isDigit then
      (word ++ ' ' :: (d :: rest').takeWhile fun c => !isDelimiter c,
        (d :: rest').dropWhile fun c => !isDelimiter c)
    else (word, rest)
  | _ => (word, rest)

/-- A value without brackets. -/
def scalar? (t : Text) : Option (Value × Text) :=
  match t with
  | '"' :: _ => (quotation? t).map fun p => (.text p.1, p.2)
  | '\'' :: _ => (quotation? t).map fun p => (.text p.1, p.2)
  | _ =>
    let (word, rest) := plainSpelling t
    (plainValue? word).map fun v => (v, rest)

/-- The items of an array up to its bracket, each read by `item?`; `fuel` bounds their
number. -/
def items? (item? : Text → Option (Value × Text)) : (fuel : Nat) → Text →
    Option (List Value × Text)
  | 0, _ => none
  | fuel + 1, t =>
    match skipBlank t with
    | none => none
    | some (']' :: t) => some ([], t)
    | some t =>
      match item? t with
      | none => none
      | some (v, t) =>
        match skipBlank t with
        | some (',' :: t) => (items? item? fuel t).map fun p => (v :: p.1, p.2)
        | some (']' :: t) => some ([v], t)
        | _ => none

/-- An assignment to the entries read so far. -/
def assignment? (value? : Text → Option (Value × Text)) (es : Entries) (t : Text) :
    Option (Entries × Text) :=
  match key? t with
  | some (keys, '=' :: t) =>
    match value? (skipSpaces t) with
    | none => none
    | some (v, t) => (atKey keys fun path last => es.assign v last path).map fun es => (es, t)
  | _ => none

/-- The assignments of an inline table up to its brace; `fuel` bounds their number. -/
def assignments? (value? : Text → Option (Value × Text)) : (fuel : Nat) → Entries → Text →
    Option (Entries × Text)
  | 0, _, _ => none
  | fuel + 1, es, t =>
    match skipBlank t with
    | none => none
    | some ('}' :: t) => some (es, t)
    | some t =>
      match assignment? value? es t with
      | none => none
      | some (es, t) =>
        match skipBlank t with
        | some (',' :: t) => assignments? value? fuel es t
        | some ('}' :: t) => some (es, t)
        | _ => none

/-- A value whose brackets nest at most `depth` deep. -/
def value? : (depth : Nat) → Text → Option (Value × Text)
  | depth, '[' :: t =>
    match depth with
    | 0 => none
    | depth + 1 => (items? (value? depth) (t.length + 1) t).map fun p => (.array p.1, p.2)
  | depth, '{' :: t =>
    match depth with
    | 0 => none
    | depth + 1 =>
      (assignments? (value? depth) (t.length + 1) [] t).map fun p =>
        (.table (finishEntries p.1), p.2)
  | _, t => scalar? t

/-- The document read so far. -/
structure Draft where
  /-- The top table. -/
  entries : Entries
  /-- The keys of the table that assignments go to. -/
  header : List Text

/-- Announce the table of a header. -/
def Draft.announce (d : Draft) (keys : List Text)
    (announce : Text → Entries → Option Entries) : Option Draft :=
  (atKey keys fun path last => Entries.within (announce last) path d.entries).map fun es =>
    ⟨es, keys⟩

/-- One line other than a blank one, without its end. -/
def line? (d : Draft) : Text → Option (Draft × Text)
  | '[' :: '[' :: t =>
    match key? t with
    | some (keys, ']' :: ']' :: t) =>
      (d.announce keys Entries.announceElement).map fun d => (d, t)
    | _ => none
  | '[' :: t =>
    match key? t with
    | some (keys, ']' :: t) => (d.announce keys Entries.announce).map fun d => (d, t)
    | _ => none
  | t =>
    match key? t with
    | some (keys, '=' :: t) =>
      match value? maxDepth (skipSpaces t) with
      | none => none
      | some (v, t) =>
        (Entries.within (fun es => atKey keys fun path last => es.assign v last path)
          d.header d.entries).map fun es => (⟨es, d.header⟩, t)
    | _ => none

/-- The lines of a document behind those read so far; `fuel` bounds their number. -/
def lines? : (fuel : Nat) → Draft → Text → Option Draft
  | 0, _, _ => none
  | fuel + 1, d, t =>
    match skipSpaces t with
    | [] => some d
    | c :: t =>
      if c = '#' ∨ (afterLineEnd? (c :: t)).isSome then
        (afterLine? (c :: t)).bind (lines? fuel d)
      else
        match line? d (c :: t) with
        | none => none
        | some (d, t) => (afterLine? t).bind (lines? fuel d)

/-- The tree of a document. A byte order mark in front of it is skipped. -/
def document? (t : Text) : Option (List (Text × Value)) :=
  let t := match t with
    | '\uFEFF' :: t => t
    | t => t
  (lines? (t.length + 1) ⟨[], []⟩ t).map fun d => finishEntries d.entries

end ClientPatch.Toml
