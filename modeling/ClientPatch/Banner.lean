import ClientPatch.Edit

/-!
# The banner rule

A banner is a line put in front of a generated client, once: a text that begins with the
banner already is left alone.
-/

namespace ClientPatch

/-- A banner by its line, without the line feed. -/
structure Banner where
  /-- The line. -/
  text : Text
  deriving DecidableEq, Repr

namespace Banner

/-- The banner that quiets the checker for the client's empty types. -/
def standard : Banner :=
  ⟨"/* eslint-disable @typescript-eslint/no-empty-object-type */".toList⟩

/-- Whether the source begins with the banner. -/
def isPresent (b : Banner) (source : Text) : Bool := Text.hasPrefix b.text source

/-- The edit that puts the banner line first, or nothing where it stands already. -/
def plan (b : Banner) (source : Text) : Option Edit :=
  if b.isPresent source then none else some (Edit.insert 0 (b.text ++ ['\n']))

end Banner

end ClientPatch
