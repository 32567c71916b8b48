import ClientPatch.Text

/-!
# Coloured text

Where colours are on, a piece of output is put between the code of its colour and the code that
ends all colours. An ending code inside the piece would end the colour too early, so the colour
begins again behind it.
-/

namespace ClientPatch

/-- The looks of a piece of output. -/
inductive Style where
  /-- For errors and removed lines. -/
  | red
  /-- For added lines. -/
  | green
  /-- For list marks. -/
  | yellow
  /-- For announcements. -/
  | cyan
  /-- For headers. -/
  | dimmed
  deriving DecidableEq, Repr

namespace Style

/-- The code that ends all colours. -/
def reset : Text := "\x1b[0m".toList

/-- The code that begins a style. -/
def code : Style → Text
  | .red => "\x1b[31m".toList
  | .green => "\x1b[32m".toList
  | .yellow => "\x1b[33m".toList
  | .cyan => "\x1b[36m".toList
  | .dimmed => "\x1b[2m".toList

/-- The text with the style begun again behind every ending code. `seen` holds the characters
right before, the nearest first. -/
def renew (s : Style) : (seen : Text) → Text → Text
  | _, [] => []
  | seen, c :: t =>
    let seen := (c :: seen).take reset.length
    if seen = reset.reverse then c :: (s.code ++ renew s [] t) else c :: renew s seen t

/-- The text in a style, where colours are on. -/
def paint (s : Style) (colors : Bool) (t : Text) : Text :=
  if colors then s.code ++ renew s [] t ++ reset else t

end Style

end ClientPatch
