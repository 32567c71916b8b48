import ClientPatch.Text

/-!
# Numbers of configuration documents

Whole numbers are written in base ten with an optional sign, or without a sign in base two,
eight or sixteen behind a mark; they must fit 64 bits with a sign. Other numbers have a
fraction, an exponent or both, and must lie below the bound from which double precision knows
only infinity. An underscore may stand between two digits.
-/

namespace ClientPatch.Toml

/-- The value of a digit in base sixteen or less. -/
def digitValue? (base : Nat) (c : Char) : Option Nat :=
  let n :=
    if '0' ≤ c ∧ c ≤ '9' then c.toNat - '0'.toNat
    else if 'a' ≤ c ∧ c ≤ 'f' then c.toNat - 'a'.toNat + 10
    else if 'A' ≤ c ∧ c ≤ 'F' then c.toNat - 'A'.toNat + 10
    else base
  if n < base then some n else none

/-- The digits of a text in which underscores stand only between digits; at least one digit. -/
def digits? (base : Nat) : Text → Option (List Nat)
  | [] => none
  | [c] => (digitValue? base c).map fun d => [d]
  | c :: '_' :: rest =>
    match digitValue? base c, digits? base rest with
    | some d, some ds => some (d :: ds)
    | _, _ => none
  | c :: rest =>
    match digitValue? base c, digits? base rest with
    | some d, some ds => some (d :: ds)
    | _, _ => none

/-- The number that digits write, most significant first. -/
def ofDigits (base : Nat) (ds : List Nat) : Nat := ds.foldl (fun n d => n * base + d) 0

/-- A text without its sign, and whether the sign was a minus. -/
def unsigned : Text → Bool × Text
  | '+' :: t => (false, t)
  | '-' :: t => (true, t)
  | t => (false, t)

/-- Base-ten digits that do not begin with a superfluous zero. -/
def plainDigits? (t : Text) : Option (List Nat) :=
  match digits? 10 t with
  | some (0 :: _ :: _) => none
  | ds => ds

/-- Whether a number fits 64 bits with a sign. -/
def fitsWord (n : Int) : Bool := -9223372036854775808 ≤ n && n ≤ 9223372036854775807

/-- A whole number behind a base mark. -/
def markedInteger? (base : Nat) (t : Text) : Option Int :=
  (digits? base t).map fun ds => (ofDigits base ds : Int)

/-- The whole number that a text writes, whatever its size. -/
def anyInteger? : Text → Option Int
  | '0' :: 'x' :: t => markedInteger? 16 t
  | '0' :: 'o' :: t => markedInteger? 8 t
  | '0' :: 'b' :: t => markedInteger? 2 t
  | t =>
    let (negative, t) := unsigned t
    (plainDigits? t).map fun ds =>
      let n : Int := ofDigits 10 ds
      if negative then -n else n

/-- The whole number that a text writes, within 64 bits. -/
def integer? (t : Text) : Option Int := (anyInteger? t).filter fitsWord

/-- Whether `m * 10 ^ e` rounds to a finite number of double precision. The first number that
does not lies half a unit above the greatest one. -/
def isFinite (m : Nat) (e : Int) : Bool :=
  let magnitude : Int := (Nat.toDigits 10 m).length + e
  let bound : Nat := Nat.pow 2 1024 - Nat.pow 2 970
  if m = 0 then true
  else if magnitude < 300 then true
  else if magnitude > 310 then false
  else if 0 ≤ e then m * Nat.pow 10 e.toNat < bound
  else m < bound * Nat.pow 10 (-e).toNat

/-- The exponent behind the letter; digits may begin with zeros. -/
def exponent? (t : Text) : Option Int :=
  let (negative, t) := unsigned t
  (digits? 10 t).map fun ds =>
    let n : Int := ofDigits 10 ds
    if negative then -n else n

/-- Whether a character parts the mantissa from the exponent. -/
def isExponentMark (c : Char) : Bool := c == 'e' || c == 'E'

/-- The digits behind the point, if there is a point, and their number. -/
def fraction? : Text → Option (List Nat)
  | [] => some []
  | '.' :: t => digits? 10 t
  | _ => none

/-- Whether a text without a sign writes a finite number with a fraction or an exponent. -/
def isDecimal (t : Text) : Bool :=
  let mantissa := t.takeWhile fun c => !isExponentMark c
  let power := t.dropWhile fun c => !isExponentMark c
  let whole := mantissa.takeWhile (· ≠ '.')
  let behind := mantissa.dropWhile (· ≠ '.')
  if power.isEmpty && behind.isEmpty then false
  else
    let e : Option Int :=
      match power with
      | [] => some 0
      | _ :: p => exponent? p
    match plainDigits? whole, fraction? behind, e with
    | some ds, some fs, some e => isFinite (ofDigits 10 (ds ++ fs)) (e - fs.length)
    | _, _, _ => false

/-- Whether a text writes a number that is not whole. -/
def isFloat (t : Text) : Bool :=
  let t := (unsigned t).2
  t == ['i', 'n', 'f'] || t == ['n', 'a', 'n'] || isDecimal t

end ClientPatch.Toml
