import ClientPatch.Banner
import ClientPatch.RecordCall

/-!
# The rules on a source

The banner rule comes first, then the record rule on the text with the banner. A record call
that is written in the banner itself is no call of the client and stays as it is.
-/

namespace ClientPatch

/-- The rules that are on. -/
structure Rules where
  /-- The banner, unless its rule is off. -/
  banner : Option Banner := some .standard
  /-- The key of record calls, unless its rule is off. -/
  record : Option RecordKey := some .standard
  deriving DecidableEq, Repr

/-- What the rules made of a source. -/
structure Transformed where
  /-- The text after the rules. -/
  contents : Text
  /-- Whether the banner was missing and was put in. -/
  bannerInserted : Bool
  /-- The calls that were given their key, by their places after the banner was put in. -/
  normalized : List RecordCall
  deriving DecidableEq, Repr

/-- Neither rule had anything to do. -/
def Transformed.isNoop (t : Transformed) : Bool := !t.bannerInserted && t.normalized.isEmpty

namespace Rules

/-- The rules for a banner line and for a key type; a rule without a text is off. -/
def ofTexts (banner keyType : Option Text) : Rules where
  banner := banner.map Banner.mk
  record := keyType.map RecordKey.ofText

/-- The source with the banner, and whether the banner had to be put in. -/
def bannerStep (rules : Rules) (source : Text) : Except EditError (Text × Bool) :=
  match rules.banner.bind (·.plan source) with
  | none => .ok (source, false)
  | some edit =>
    match Edit.applyAll source [edit] with
    | .error e => .error e
    | .ok contents => .ok (contents, true)

/-- The number of bytes of the banner that a text begins with; zero without one. -/
def bannerEnd (rules : Rules) (contents : Text) : Nat :=
  match rules.banner with
  | none => 0
  | some b => if b.isPresent contents then b.text.size else 0

/-- The calls beyond the banner that lack the key, each with its edit. -/
def recordPlan (rules : Rules) (contents : Text) : List (RecordCall × Edit) :=
  match rules.record with
  | none => []
  | some r => (r.plan contents).filter fun p => rules.bannerEnd contents < p.1.argsStart

/-- The source after both rules. -/
def transform (rules : Rules) (source : Text) : Except EditError Transformed :=
  match rules.bannerStep source with
  | .error e => .error e
  | .ok (contents, inserted) =>
    let planned := rules.recordPlan contents
    match Edit.applyAll contents (planned.map (·.2)) with
    | .error e => .error e
    | .ok result => .ok ⟨result, inserted, planned.map (·.1)⟩

end Rules

end ClientPatch
