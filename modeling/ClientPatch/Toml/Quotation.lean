import ClientPatch.Toml.Number

/-!
# Quoted texts of configuration documents

A text stands between quotation marks or between apostrophes; between apostrophes nothing is
escaped. Three marks instead of one allow line ends inside, drop one right behind the opening
marks, and allow up to two marks right before the closing ones. Each reader starts behind the
opening marks and gives the text with what follows the closing ones.
-/

namespace ClientPatch.Toml

/-- The characters that need no escape: no control but the tab. -/
def isPlainChar (c : Char) : Bool := c == '\t' || (0x20 ≤ c.toNat && c.toNat ≠ 0x7F)

/-- The character whose number is written by the next `n` digits in base sixteen, behind the
number read so far. -/
def numberedChar? : (n : Nat) → (read : Nat) → Text → Option (Char × Text)
  | 0, read, t => if read.isValidChar then some (Char.ofNat read, t) else none
  | n + 1, read, c :: t =>
    match digitValue? 16 c with
    | some d => numberedChar? n (read * 16 + d) t
    | none => none
  | _ + 1, _, [] => none

/-- The character that an escape writes, behind the backslash. -/
def escaped? : Text → Option (Char × Text)
  | 'b' :: t => some ('\x08', t)
  | 't' :: t => some ('\t', t)
  | 'n' :: t => some ('\n', t)
  | 'f' :: t => some ('\x0c', t)
  | 'r' :: t => some ('\r', t)
  | 'e' :: t => some ('\x1b', t)
  | '"' :: t => some ('"', t)
  | '\\' :: t => some ('\\', t)
  | 'x' :: t => numberedChar? 2 0 t
  | 'u' :: t => numberedChar? 4 0 t
  | 'U' :: t => numberedChar? 8 0 t
  | _ => none

/-- What follows a line end at the very start. -/
def afterLineEnd? : Text → Option Text
  | '\n' :: t => some t
  | '\r' :: '\n' :: t => some t
  | _ => none

/-- A space or a tab. -/
def isSpace (c : Char) : Bool := c == ' ' || c == '\t'

/-- What follows a run of spaces, tabs and line ends. -/
def skipFolded : Text → Text
  | ' ' :: t => skipFolded t
  | '\t' :: t => skipFolded t
  | '\n' :: t => skipFolded t
  | '\r' :: '\n' :: t => skipFolded t
  | t => t

/-- What follows a line end that a backslash takes out, with all blanks behind it. -/
def afterFold? (t : Text) : Option Text :=
  (afterLineEnd? (t.dropWhile isSpace)).map skipFolded

/-- Put a character in front of a text that was read. -/
def consTo (c : Char) : Option (Text × Text) → Option (Text × Text)
  | none => none
  | some (read, rest) => some (c :: read, rest)

/-- The text up to the closing apostrophe. -/
def literal? : Text → Option (Text × Text)
  | '\'' :: t => some ([], t)
  | c :: t => if isPlainChar c then consTo c (literal? t) else none
  | [] => none

/-- The text up to the closing quotation mark; `fuel` bounds the number of characters. -/
def basic? : (fuel : Nat) → Text → Option (Text × Text)
  | 0, _ => none
  | _, [] => none
  | fuel + 1, c :: t =>
    if c = '"' then some ([], t)
    else if c = '\\' then
      match escaped? t with
      | some (c, t) => consTo c (basic? fuel t)
      | none => none
    else if isPlainChar c then consTo c (basic? fuel t)
    else none

/-- The marks that belong to the text when a run of them ends it, and what follows the run. -/
def closing? (mark : Char) (t : Text) : Option (Text × Text) :=
  match t with
  | a :: b :: c :: t =>
    if a = mark ∧ b = mark ∧ c = mark then
      match t with
      | d :: e :: t' =>
        if d = mark ∧ e = mark then some ([mark, mark], t')
        else if d = mark then some ([mark], e :: t')
        else some ([], t)
      | [d] => if d = mark then some ([mark], []) else some ([], [d])
      | [] => some ([], [])
    else none
  | _ => none

/-- The text up to three closing apostrophes. -/
def longLiteral? : Text → Option (Text × Text)
  | [] => none
  | c :: t =>
    match closing? '\'' (c :: t) with
    | some r => some r
    | none =>
      if isPlainChar c || (afterLineEnd? (c :: t)).isSome then consTo c (longLiteral? t)
      else none

/-- The text up to three closing quotation marks; `fuel` bounds the number of characters. -/
def longBasic? : (fuel : Nat) → Text → Option (Text × Text)
  | 0, _ => none
  | _, [] => none
  | fuel + 1, c :: t =>
    match closing? '"' (c :: t) with
    | some r => some r
    | none =>
      if c = '\\' then
        match afterFold? t with
        | some t => longBasic? fuel t
        | none =>
          match escaped? t with
          | some (c, t) => consTo c (longBasic? fuel t)
          | none => none
      else if isPlainChar c || (afterLineEnd? (c :: t)).isSome then
        consTo c (longBasic? fuel t)
      else none

/-- A text without the line end it may begin with. -/
def dropLineEnd (t : Text) : Text := (afterLineEnd? t).getD t

/-- The quoted text on one line at the start, of either kind. -/
def shortQuotation? : Text → Option (Text × Text)
  | '"' :: t => basic? (t.length + 1) t
  | '\'' :: t => literal? t
  | _ => none

/-- The quoted text at the start, of any kind. -/
def quotation? : Text → Option (Text × Text)
  | '"' :: '"' :: '"' :: t => longBasic? (t.length + 1) (dropLineEnd t)
  | '\'' :: '\'' :: '\'' :: t => longLiteral? (dropLineEnd t)
  | t => shortQuotation? t

end ClientPatch.Toml
