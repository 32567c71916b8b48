import ClientPatch.Banner
import ClientPatch.RecordCall
import ClientPatch.Rules
import ClientPatch.Path

/-!
# Configurations

A configuration names the target, the banner and the key of record calls. It is valid when a
second run of its rules would find nothing to do: the banner is one line, the key type is one
argument, and neither holds a record call of its own. A rule that is off is held to the same.
Validation names every fault.
-/

namespace ClientPatch

/-- The file to patch where none is named. -/
def defaultTarget : Path := "src/generated/api.ts".toList

/-- The file to patch. -/
structure TargetConfig where
  /-- The file, seen from the workspace root unless it is absolute. -/
  file : Path := defaultTarget
  /-- The workspace root; the working directory when it is not given. -/
  root : Option Path := none
  deriving DecidableEq, Repr

/-- The banner rule. -/
structure BannerConfig where
  /-- Whether the rule is on. -/
  enabled : Bool := true
  /-- The banner line. -/
  text : Text := Banner.standard.text
  deriving DecidableEq, Repr

/-- The record rule. -/
structure RecordConfig where
  /-- Whether the rule is on. -/
  enabled : Bool := true
  /-- The key type; blanks at its ends do not count. -/
  keyType : Text := RecordKey.standard.keyType
  deriving DecidableEq, Repr

/-- A configuration; what is not given has its default. -/
structure Config where
  /-- The file to patch. -/
  target : TargetConfig := {}
  /-- The banner rule. -/
  banner : BannerConfig := {}
  /-- The record rule. -/
  record : RecordConfig := {}
  deriving DecidableEq, Repr

/-- The fields that validation looks at. -/
inductive ConfigField where
  /-- The file to patch. -/
  | targetFile
  /-- The banner line. -/
  | bannerText
  /-- The key type. -/
  | keyType
  deriving DecidableEq, Repr

/-- The name of a field. -/
def ConfigField.name : ConfigField → Text
  | .targetFile => "target.file".toList
  | .bannerText => "banner.text".toList
  | .keyType => "record.key_type".toList

/-- A fault of a configuration. -/
inductive ConfigIssue where
  /-- The field says nothing. -/
  | missing (field : ConfigField)
  /-- The banner has more than one line. -/
  | bannerLines
  /-- The banner holds a record call. -/
  | bannerCall
  /-- The key type holds a comma. -/
  | keyComma
  /-- The key type holds a record call. -/
  | keyCall
  /-- Both rules are off. -/
  | nothingEnabled
  deriving DecidableEq, Repr

namespace ConfigIssue

/-- The field at fault; none when it is the choice of rules. -/
def field : ConfigIssue → Option ConfigField
  | .missing f => some f
  | .bannerLines => some .bannerText
  | .bannerCall => some .bannerText
  | .keyComma => some .keyType
  | .keyCall => some .keyType
  | .nothingEnabled => none

/-- The message for a field whose value cannot be used. -/
def invalidMessage (field : ConfigField) (reason : Text) : Text :=
  "invalid value for '".toList ++ field.name ++ "': ".toList ++ reason

/-- The message for a fault. -/
def message : ConfigIssue → Text
  | .missing f => "missing required field '".toList ++ f.name ++ "'".toList
  | .bannerLines => invalidMessage .bannerText "banner must be a single line".toList
  | .bannerCall => invalidMessage .bannerText "banner must not contain `.record(`".toList
  | .keyComma =>
    invalidMessage .keyType "key type must be a single expression without commas".toList
  | .keyCall => invalidMessage .keyType "key type must not contain `.record(`".toList
  | .nothingEnabled => "both banner and record rules are disabled".toList

/-- The message for all faults of a configuration. -/
def messages (issues : List ConfigIssue) : Text :=
  Text.joinWith [';', ' '] (issues.map message)

end ConfigIssue

namespace Config

/-- The fault of the target, if it has one. -/
def targetIssue (c : TargetConfig) : Option ConfigIssue :=
  if c.file.isEmpty then some (.missing .targetFile) else none

/-- The first fault of the banner, if it has one. -/
def bannerIssue (c : BannerConfig) : Option ConfigIssue :=
  if Text.isBlankText c.text then some (.missing .bannerText)
  else if c.text.elem '\n' then some .bannerLines
  else if Text.hasInfix recordToken c.text then some .bannerCall
  else none

/-- The first fault of the key type, if it has one. -/
def recordIssue (c : RecordConfig) : Option ConfigIssue :=
  if Text.isBlankText c.keyType then some (.missing .keyType)
  else if c.keyType.elem ',' then some .keyComma
  else if Text.hasInfix recordToken c.keyType then some .keyCall
  else none

/-- The fault of having nothing to do. -/
def choiceIssue (c : Config) : Option ConfigIssue :=
  if c.banner.enabled || c.record.enabled then none else some .nothingEnabled

/-- The faults of a configuration, at most one for each of its parts. -/
def issues (c : Config) : List ConfigIssue :=
  [targetIssue c.target, bannerIssue c.banner, recordIssue c.record, choiceIssue c].reduceOption

/-- The rules that a configuration turns on. -/
def rules (c : Config) : Rules :=
  .ofTexts (if c.banner.enabled then some c.banner.text else none)
    (if c.record.enabled then some c.record.keyType else none)

end Config

end ClientPatch
