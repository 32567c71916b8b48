import ClientPatch.Config.Load
import Mathlib.Data.List.ReduceOption
import Mathlib.Tactic.SplitIfs

/-!
# What a loaded configuration holds

Every way of loading goes through validation, and the default configuration passes it as well.
So a loaded configuration has no faults, and neither its banner nor its key type holds a record
call, whichever rules it turns on.
-/

namespace ClientPatch.Config

/-- A configuration that some way of loading gives. -/
inductive Loaded : Config → Prop
  /-- From a text. -/
  | ofText {origin t : Text} {c : Config} (h : ofText origin t = .ok c) : Loaded c
  /-- From a file. -/
  | load {tree : FileTree} {p : Path} {c : Config} (h : load tree p = .ok c) : Loaded c
  /-- From the file that is given or found, or by default. -/
  | loadOrDefault {tree : FileTree} {given found : Option Path} {directory : Path} {c : Config}
      (h : loadOrDefault tree given directory = .ok (c, found)) : Loaded c

theorem issues_eq_nil_iff {c : Config} :
    c.issues = [] ↔ targetIssue c.target = none ∧ bannerIssue c.banner = none ∧
      recordIssue c.record = none ∧ choiceIssue c = none := by
  unfold issues
  cases targetIssue c.target <;> cases bannerIssue c.banner <;>
    cases recordIssue c.record <;> cases choiceIssue c <;> simp

theorem bannerIssue_eq_none_iff {c : BannerConfig} :
    bannerIssue c = none ↔
      Text.isBlankText c.text = false ∧ '\n' ∉ c.text ∧ ¬recordToken <:+: c.text := by
  rw [← Text.hasInfix_iff]
  unfold bannerIssue
  split_ifs <;> simp_all

theorem recordIssue_eq_none_iff {c : RecordConfig} :
    recordIssue c = none ↔
      Text.isBlankText c.keyType = false ∧ ',' ∉ c.keyType ∧ ¬recordToken <:+: c.keyType := by
  rw [← Text.hasInfix_iff]
  unfold recordIssue
  split_ifs <;> simp_all

theorem issues_parse {t : Text} {c : Config} (h : parse t = .ok c) : c.issues = [] := by
  unfold parse at h
  split at h
  · cases h
  · split at h
    · rename_i hissues
      cases h
      exact hissues
    · cases h

theorem issues_ofText {origin t : Text} {c : Config} (h : ofText origin t = .ok c) :
    c.issues = [] := by
  unfold ofText at h
  split at h
  · rename_i hparse
    cases h
    exact issues_parse hparse
  · cases h

theorem issues_load {tree : FileTree} {p : Path} {c : Config} (h : load tree p = .ok c) :
    c.issues = [] := by
  unfold load at h
  split at h
  · cases h
  · exact issues_ofText h

theorem issues_default : ({} : Config).issues = [] := by decide

theorem issues_loadOrDefault {tree : FileTree} {given found : Option Path} {directory : Path}
    {c : Config} (h : loadOrDefault tree given directory = .ok (c, found)) : c.issues = [] := by
  unfold loadOrDefault at h
  split at h
  · cases h
    exact issues_default
  · split at h
    · cases h
    · rename_i hload
      cases h
      exact issues_load hload

/-- A loaded configuration has no faults. -/
theorem Loaded.issues_eq_nil {c : Config} (h : c.Loaded) : c.issues = [] := by
  cases h with
  | ofText h => exact issues_ofText h
  | load h => exact issues_load h
  | loadOrDefault h => exact issues_loadOrDefault h

theorem banner_free {c : Config} (h : c.issues = []) : ¬recordToken <:+: c.banner.text :=
  (bannerIssue_eq_none_iff.1 (issues_eq_nil_iff.1 h).2.1).2.2

theorem keyType_free {c : Config} (h : c.issues = []) : ¬recordToken <:+: c.record.keyType :=
  (recordIssue_eq_none_iff.1 (issues_eq_nil_iff.1 h).2.2.1).2.2

end ClientPatch.Config
