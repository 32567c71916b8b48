import ClientPatch.Text

/-!
# Configuration trees

A document of the configuration language is a tree of tables and values. While it is read, a
table also remembers how it came to be: announced by a header of its own, implied by the header
of a table inside it, or built by dotted keys. That decides what later lines may still add. No
key is ever given twice, so the finished tree holds each key once per table.
-/

namespace ClientPatch.Toml

/-- A value of a document. Of numbers with a fraction and of dates only the spelling is kept. -/
inductive Value where
  /-- A text. -/
  | text (value : Text)
  /-- A truth value. -/
  | boolean (value : Bool)
  /-- A whole number. -/
  | integer (value : Int)
  /-- A number with a fraction or an exponent, an infinity, or no number at all. -/
  | float (spelling : Text)
  /-- A date, a time, or both. -/
  | moment (spelling : Text)
  /-- A list of values. -/
  | array (items : List Value)
  /-- Keys with their values, in the order of the document. -/
  | table (entries : List (Text × Value))

/-- How a table came to be. -/
inductive TableOrigin where
  /-- By a header of its own. -/
  | announced
  /-- By the header of a table inside it. -/
  | implied
  /-- By a dotted key. -/
  | dotted
  deriving DecidableEq, Repr

/-- What a key stands for while the document is read. -/
inductive Item where
  /-- A finished value. -/
  | value (v : Value)
  /-- A table that may still grow. -/
  | table (origin : TableOrigin) (entries : List (Text × Item))
  /-- The tables of a repeated header; the last one may still grow. -/
  | tables (elements : List (List (Text × Item)))

/-- The keys of a table with their items, in order. -/
abbrev Entries := List (Text × Item)

namespace Entries

/-- The entries with another item under a key that is there. -/
def set (es : Entries) (key : Text) (item : Item) : Entries :=
  es.map fun e => if e.1 = key then (key, item) else e

/-- The entries with a new key at the end. -/
def push (es : Entries) (key : Text) (item : Item) : Entries := es ++ [(key, item)]

/-- Change the table at a path of keys; tables that are not there yet are implied. -/
def within (change : Entries → Option Entries) : List Text → Entries → Option Entries
  | [], es => change es
  | key :: keys, es =>
    match es.lookup key with
    | none => (within change keys []).map fun sub => es.push key (.table .implied sub)
    | some (.table origin sub) =>
      (within change keys sub).map fun sub => es.set key (.table origin sub)
    | some (.tables elements) =>
      match elements.getLast? with
      | none => none
      | some sub =>
        (within change keys sub).map fun sub =>
          es.set key (.tables (elements.dropLast ++ [sub]))
    | some (.value _) => none

/-- Announce a table: its key is new or was only implied. -/
def announce (key : Text) (es : Entries) : Option Entries :=
  match es.lookup key with
  | none => some (es.push key (.table .announced []))
  | some (.table .implied sub) => some (es.set key (.table .announced sub))
  | some _ => none

/-- Announce one more table of a repeated header. -/
def announceElement (key : Text) (es : Entries) : Option Entries :=
  match es.lookup key with
  | none => some (es.push key (.tables [[]]))
  | some (.tables elements) => some (es.set key (.tables (elements ++ [[]])))
  | some _ => none

/-- Give a key its value. A dotted key may pass only through tables made by dotted keys. -/
def assign (v : Value) (last : Text) : List Text → Entries → Option Entries
  | [], es =>
    match es.lookup last with
    | none => some (es.push last (.value v))
    | some _ => none
  | key :: keys, es =>
    match es.lookup key with
    | none => (assign v last keys []).map fun sub => es.push key (.table .dotted sub)
    | some (.table .dotted sub) =>
      (assign v last keys sub).map fun sub => es.set key (.table .dotted sub)
    | some _ => none

end Entries

mutual

/-- The finished value of an item. -/
def Item.finish : Item → Value
  | .value v => v
  | .table _ entries => .table (finishEntries entries)
  | .tables elements => .array (finishElements elements)

/-- The finished entries of a table. -/
def finishEntries : List (Text × Item) → List (Text × Value)
  | [] => []
  | (key, item) :: rest => (key, item.finish) :: finishEntries rest

/-- The finished tables of a repeated header. -/
def finishElements : List (List (Text × Item)) → List Value
  | [] => []
  | entries :: rest => .table (finishEntries entries) :: finishElements rest

end

end ClientPatch.Toml
