import ClientPatch.Config
import ClientPatch.Toml.Document

/-!
# Configurations from documents

A document overrides the default configuration field by field. A section is a table with some
of the section's keys, or an array with the values of its first keys in their fixed order; what
an array holds beyond them does not count. A section that is left out is the default one; in a
section that is there, each field that is left out has a default of its own. A key that no section
knows, and a value that is not of its field's type, make the whole document no configuration.
-/

namespace ClientPatch

open Toml (Value)

/-- What can be said about one section of type `σ`: its keys, what it is when no key is given,
and how a value changes it. -/
structure SectionShape (σ : Type) where
  /-- The keys in the order of the array form. -/
  keys : List Text
  /-- The section with the default of each field. -/
  bare : σ
  /-- The section with another value under a key, if the key and the value fit. -/
  set : Text → Value → σ → Option σ

namespace SectionShape

/-- Override the fields given one after another. -/
def override {σ : Type} (shape : SectionShape σ) : List (Text × Value) → σ → Option σ
  | [], s => some s
  | (key, v) :: rest, s =>
    match shape.set key v s with
    | some s => override shape rest s
    | none => none

/-- The section that a value describes. -/
def read {σ : Type} (shape : SectionShape σ) (v : Value) : Option σ :=
  match v with
  | .table entries => shape.override entries shape.bare
  | .array items => shape.override (shape.keys.zip items) shape.bare
  | _ => none

end SectionShape

/-- The text of a value that is a text. -/
def textValue? : Value → Option Text
  | .text t => some t
  | _ => none

/-- The truth value of a value that is one. -/
def booleanValue? : Value → Option Bool
  | .boolean b => some b
  | _ => none

/-- The key of the target. -/
def targetKey : Text := "target".toList

/-- The key of the banner rule. -/
def bannerKey : Text := "banner".toList

/-- The key of the record rule. -/
def recordKey : Text := "record".toList

/-- The key of the target file. -/
def fileKey : Text := "file".toList

/-- The key of the workspace root. -/
def rootKey : Text := "root".toList

/-- The key that turns a rule on or off. -/
def enabledKey : Text := "enabled".toList

/-- The key of the banner line. -/
def textKey : Text := "text".toList

/-- The key of the key type. -/
def keyTypeKey : Text := "key_type".toList

/-- The section of the target. -/
def targetShape : SectionShape TargetConfig where
  keys := [fileKey, rootKey]
  bare := { file := defaultTarget, root := none }
  set key v s :=
    if key = fileKey then (textValue? v).map fun t => { s with file := t }
    else if key = rootKey then (textValue? v).map fun t => { s with root := some t }
    else none

/-- The section of the banner. -/
def bannerShape : SectionShape BannerConfig where
  keys := [enabledKey, textKey]
  bare := { enabled := true, text := Banner.standard.text }
  set key v s :=
    if key = enabledKey then (booleanValue? v).map fun b => { s with enabled := b }
    else if key = textKey then (textValue? v).map fun t => { s with text := t }
    else none

/-- The section of the record rule. -/
def recordShape : SectionShape RecordConfig where
  keys := [enabledKey, keyTypeKey]
  bare := { enabled := true, keyType := RecordKey.standard.keyType }
  set key v s :=
    if key = enabledKey then (booleanValue? v).map fun b => { s with enabled := b }
    else if key = keyTypeKey then (textValue? v).map fun t => { s with keyType := t }
    else none

/-- The sections of a configuration. -/
def configShape : SectionShape Config where
  keys := [targetKey, bannerKey, recordKey]
  bare := { target := {}, banner := {}, record := {} }
  set key v c :=
    if key = targetKey then (targetShape.read v).map fun s => { c with target := s }
    else if key = bannerKey then (bannerShape.read v).map fun s => { c with banner := s }
    else if key = recordKey then (recordShape.read v).map fun s => { c with record := s }
    else none

/-- The configuration that a document's tree describes. -/
def Config.ofTree (entries : List (Text × Value)) : Option Config :=
  configShape.override entries configShape.bare

/-- Why a text is no configuration to work with. -/
inductive ConfigFault where
  /-- It is no document, or has keys or values that no configuration has. -/
  | notToml
  /-- It is a configuration with faults. -/
  | invalid (issues : List ConfigIssue)
  deriving DecidableEq, Repr

/-- The valid configuration that a text describes. -/
def Config.parse (t : Text) : Except ConfigFault Config :=
  match (Toml.document? t).bind Config.ofTree with
  | none => .error .notToml
  | some c =>
    match c.issues with
    | [] => .ok c
    | issues => .error (.invalid issues)

end ClientPatch
