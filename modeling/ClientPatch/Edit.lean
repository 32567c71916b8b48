import ClientPatch.Text.Quoted

/-!
# Edits of a text

An edit replaces the bytes of a span by a new text, and names the text it expects to find
there. A list of edits is planned against one text and may come in any order: every edit is
checked against that text before the first is made, edits that compete for the same place are
refused, and the accepted ones are made from the end of the text to its start, so that the
spans still to come keep their places.
-/

namespace ClientPatch

/-- The bytes from `start` up to, and without, `stop`. -/
structure Span where
  /-- The first byte. -/
  start : Nat
  /-- The first byte after the span. -/
  stop : Nat
  deriving DecidableEq, Repr

/-- The span from `start` to `stop` is to hold `text`; now it holds `before`. -/
structure Edit extends Span where
  /-- What the span is to hold. -/
  text : Text
  /-- What the span must hold before the edit. -/
  before : Text
  deriving DecidableEq, Repr

/-- Why a list of edits is refused. -/
inductive EditError where
  /-- The span runs backwards or past the end of a text of `size` bytes. -/
  | badSpan (span : Span) (size : Nat)
  /-- The offset lies inside a character. -/
  | insideCharacter (offset : Nat)
  /-- The span holds `found` where `expected` was announced. -/
  | unexpectedText (span : Span) (expected found : Text)
  /-- Two edits compete for the same place. -/
  | overlap (first second : Span)
  deriving DecidableEq, Repr

/-- The span as messages show it. -/
def Span.shown (s : Span) : Text :=
  ['['] ++ Text.ofNat s.start ++ [',', ' '] ++ Text.ofNat s.stop ++ [')']

/-- The message for a refused list of edits. -/
def EditError.message : EditError → Text
  | .badSpan span size =>
    "Invalid byte range: ".toList ++ span.shown ++ " in buffer of length ".toList ++
      Text.ofNat size
  | .insideCharacter offset =>
    "Byte offset ".toList ++ Text.ofNat offset ++
      " is not on a UTF-8 character boundary".toList
  | .unexpectedText span expected found =>
    "Before-text verification failed at byte ".toList ++ Text.ofNat span.start ++
      ": expected ".toList ++ Text.quoted expected ++ ", found ".toList ++ Text.quoted found
  | .overlap first second =>
    "Overlapping edits: ".toList ++ first.shown ++ " and ".toList ++ second.shown

namespace Edit

/-- The edit that puts `text` in at an offset. -/
def insert (offset : Nat) (text : Text) : Edit := ⟨⟨offset, offset⟩, text, []⟩

/-- An insertion replaces nothing. -/
def isInsertion (e : Edit) : Bool := e.start == e.stop

/-- Whether the edit can be made on `content`: its span is in range, then begins and ends
between characters, then holds the announced text. -/
def check (content : Text) (e : Edit) : Except EditError Unit :=
  if e.start > e.stop ∨ e.stop > content.size then
    .error (.badSpan e.toSpan content.size)
  else
    match content.splitAt? e.start with
    | none => .error (.insideCharacter e.start)
    | some (_, rest) =>
      match Text.splitAt? (e.stop - e.start) rest with
      | none => .error (.insideCharacter e.stop)
      | some (found, _) =>
        if found = e.before then .ok ()
        else .error (.unexpectedText e.toSpan e.before found)

/-- The order in which edits are made: the later start first, of equal starts the later end. -/
def isMadeBefore (a b : Edit) : Bool :=
  b.start < a.start || (b.start == a.start && b.stop ≤ a.stop)

/-- The edits in the order in which they are made; equal spans keep their order. -/
def ordered (edits : List Edit) : List Edit := edits.mergeSort isMadeBefore

/-- Whether `earlier` reaches into `later`, or both are insertions at one offset. -/
def collides (later earlier : Edit) : Bool :=
  earlier.stop > later.start ||
    (later.isInsertion && earlier.isInsertion && later.start == earlier.start)

/-- The first two neighbours that compete for a place, the one made later first. -/
def firstCollision : List Edit → Option (Edit × Edit)
  | later :: earlier :: rest =>
    if collides later earlier then some (earlier, later) else firstCollision (earlier :: rest)
  | _ => none

/-- The text after the edit, without a look at what the span held. -/
def splice (content : Text) (e : Edit) : Except EditError Text :=
  match content.cut? e.start e.stop with
  | none => .error (.badSpan e.toSpan content.size)
  | some (a, _, z) => .ok (a ++ e.text ++ z)

/-- The text after all edits. All are checked first, in the order in which they would be
made, then the neighbours in that order, and only then is the first edit made. -/
def applyAll (content : Text) (edits : List Edit) : Except EditError Text :=
  let order := ordered edits
  match order.forM (check content) with
  | .error e => .error e
  | .ok () =>
    match firstCollision order with
    | some (first, second) => .error (.overlap first.toSpan second.toSpan)
    | none => order.foldlM splice content

/-- No edits leave the text alone. -/
@[simp] theorem applyAll_nil (content : Text) : applyAll content [] = .ok content := by
  simp [applyAll, ordered, firstCollision]
  rfl

/-- A checked edit cuts the text at both ends of its span, around the announced text. -/
theorem cut?_of_check {content : Text} {e : Edit} (h : check content e = .ok ()) :
    ∃ a z, content.cut? e.start e.stop = some (a, e.before, z) := by
  unfold check at h
  split at h
  · cases h
  · split at h
    · cases h
    · rename_i a rest h₁
      split at h
      · cases h
      · rename_i found z h₂
        split at h
        · rename_i hf
          exact ⟨a, z, by rw [Text.cut?, h₁]; simp only [h₂, hf]⟩
        · cases h

end Edit

end ClientPatch
