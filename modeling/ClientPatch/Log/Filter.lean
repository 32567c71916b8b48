import ClientPatch.Log

/-!
# Log filters

A filter is a list of directives with commas between them. A directive is a level alone, or an
origin with an optional level; it may also name a span in brackets, with fields of it in braces.
An event passes when the most specific directive for its origin admits its level. A filter
without directives lets errors pass.
-/

namespace ClientPatch

/-- The levels that a directive admits: none, or those up to some level. -/
abbrev LogBound := Nat

/-- What a directive asks of a field of the current span or event. -/
structure FieldCondition where
  /-- The name of the field. -/
  name : Text
  /-- Whether a value is asked for. -/
  hasValue : Bool
  deriving DecidableEq, Repr

/-- A directive of a filter. -/
structure LogDirective where
  /-- The start that the origins of events must have. -/
  origin : Option Text
  /-- The span that events must lie in. -/
  span : Option Text
  /-- The fields that must be there. -/
  fields : List FieldCondition
  /-- The levels that pass. -/
  bound : LogBound
  deriving DecidableEq, Repr

/-- A filter by its directives. -/
structure LogFilter where
  /-- The directives, in order. -/
  directives : List LogDirective
  deriving DecidableEq, Repr

namespace LogBound

/-- All levels pass. -/
def all : LogBound := LogLevel.trace.rank

/-- The text in lower case, as far as it is ASCII. -/
def lower (t : Text) : Text := t.map Char.toLower

/-- The number that a text of digits writes, behind a plus sign or not. -/
def number? (t : Text) : Option Nat :=
  let t := match t with
    | '+' :: t => t
    | t => t
  if t.isEmpty || !t.all Char.isDigit then none
  else some (t.foldl (fun n c => n * 10 + (c.toNat - '0'.toNat)) 0)

/-- The bound that a text names, by a word in any case or by a number. -/
def ofText? (t : Text) : Option LogBound :=
  match number? t with
  | some n => if n ≤ all then some n else none
  | none =>
    let t := lower t
    if t = [] then some LogLevel.error.rank
    else if t = "off".toList then some 0
    else if t = "error".toList then some LogLevel.error.rank
    else if t = "warn".toList then some LogLevel.warn.rank
    else if t = "info".toList then some LogLevel.info.rank
    else if t = "debug".toList then some LogLevel.debug.rank
    else if t = "trace".toList then some LogLevel.trace.rank
    else none

end LogBound

namespace LogDirective

/-- The bound behind an equals sign; all levels pass when nothing is written. -/
def boundAfter? (t : Text) : Option LogBound :=
  if t.isEmpty then some LogBound.all else LogBound.ofText? t

/-- What may follow a span: nothing, or an equals sign with a bound. -/
def afterSpan? : Text → Option LogBound
  | [] => some LogBound.all
  | '=' :: t => boundAfter? t
  | _ => none

/-- The condition on one field. -/
def field (t : Text) : FieldCondition := ⟨t.takeWhile (· ≠ '='), t.elem '='⟩

/-- The span at the start, behind its bracket, with a bound behind it. -/
def spanned? (origin : Option Text) (t : Text) : Option LogDirective :=
  let name := t.takeWhile fun c => c ≠ ']' && c ≠ '\x7b'
  match t.dropWhile fun c => c ≠ ']' && c ≠ '\x7b' with
  | ']' :: t => (afterSpan? t).map fun b => ⟨origin, some name, [], b⟩
  | '\x7b' :: t =>
    let inside := t.takeWhile (· ≠ '\x7d')
    match t.dropWhile (· ≠ '\x7d') with
    | '\x7d' :: ']' :: t =>
      if inside.isEmpty then none
      else
        (afterSpan? t).map fun b =>
          ⟨origin, if name.isEmpty then none else some name, [field inside], b⟩
    | _ => none
  | _ => none

/-- Whether a directive may begin with a character. -/
def mayBegin (c : Char) : Bool :=
  c == '-' || c == ':' || c == '_' || c.isAlphanum || c.toNat > 0x7F

/-- The directive that a text writes. -/
def ofText? (t : Text) : Option LogDirective :=
  match t with
  | [] => none
  | '[' :: t => spanned? none t
  | c :: _ =>
    if !mayBegin c then none
    else
      let word := t.takeWhile fun c => c ≠ '=' && c ≠ '['
      match t.dropWhile fun c => c ≠ '=' && c ≠ '[' with
      | [] =>
        match LogBound.ofText? word with
        | some b => some ⟨none, none, [], b⟩
        | none => some ⟨some word, none, [], LogBound.all⟩
      | '=' :: t => (boundAfter? t).map fun b => ⟨some word, none, [], b⟩
      | _ :: t => spanned? (some word) t

/-- Whether a directive waits for a span, so that it says nothing of an event outside spans. -/
def awaitsSpan (d : LogDirective) : Bool := d.span.isSome || d.fields.any (·.hasValue)

/-- Whether a directive is about an event. -/
def concerns (d : LogDirective) (e : LogEvent) : Bool :=
  (match d.origin with
    | none => true
    | some o => Text.hasPrefix o e.origin) &&
  d.fields.all fun f => f.name = "message".toList || e.fields.any fun g => g.1 = f.name

/-- How specific a directive is: the longer origin first, then the more fields. -/
def weight (d : LogDirective) : Nat × Nat :=
  ((d.origin.map fun o => Text.size o + 1).getD 0, d.fields.length)

end LogDirective

namespace LogFilter

/-- The filter that a text writes. -/
def ofText? (t : Text) : Option LogFilter :=
  let pieces := (Text.splitOn ',' t).filter fun p => !p.isEmpty
  (pieces.mapM LogDirective.ofText?).map LogFilter.mk

/-- The more specific of two directives; of equals the later one. -/
def moreSpecific (a b : LogDirective) : LogDirective :=
  let (la, fa) := a.weight
  let (lb, fb) := b.weight
  if lb > la || (lb == la && fb ≥ fa) then b else a

/-- The directive that decides about an event. -/
def deciding? (f : LogFilter) (e : LogEvent) : Option LogDirective :=
  (f.directives.filter fun d => !d.awaitsSpan && d.concerns e).foldl
    (fun best d => some (match best with
      | none => d
      | some b => moreSpecific b d)) none

/-- Whether an event passes. -/
def admits (f : LogFilter) (e : LogEvent) : Bool :=
  if f.directives.isEmpty then e.level.rank ≤ LogLevel.error.rank
  else
    match f.deciding? e with
    | some d => e.level.rank ≤ d.bound
    | none => false

/-- The usual filter, as it is written. -/
def usualText (verbose : Bool) : Text :=
  if verbose then "zod_client_patcher=debug".toList else "warn".toList

/-- The usual filter. -/
def usual (verbose : Bool) : LogFilter :=
  if verbose then ⟨[⟨some commandOrigin, none, [], LogLevel.debug.rank⟩]⟩
  else ⟨[⟨none, none, [], LogLevel.warn.rank⟩]⟩

/-- The usual filter is the one that its text says. -/
theorem ofText?_usualText (verbose : Bool) :
    ofText? (usualText verbose) = some (usual verbose) := by
  cases verbose <;> rfl

/-- The filter that the environment asks for when it can be read, else the usual one. -/
def choose (asked : Option Text) (verbose : Bool) : LogFilter :=
  (asked.bind ofText?).getD (usual verbose)

/-- The lines of the events that pass. -/
def lines (f : LogFilter) (events : List LogEvent) : Text :=
  (events.filter f.admits).flatMap LogEvent.line

end LogFilter

end ClientPatch
