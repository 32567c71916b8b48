import ClientPatch.Proofs.PatchAgreement
import ClientPatch.Proofs.RulesExact
import ClientPatch.Proofs.StatusLine
import ClientPatch.Proofs.TargetVerdict

/-!
# How far a command comes

A command needs a configuration and a root before anything else, then a target that is there, and
then one that may be patched, read and written. The first of these that it lacks decides how it
ends, and only when it lacks none it tells an outcome.
-/

namespace ClientPatch

open FileTree (pathOf)

namespace TargetOptions

/-- The file that the configuration is read from: the one that is given, or the one of the usual
name in the directory. -/
def source? (o : TargetOptions) (t : FileTree) (dir : Location) : Option Path :=
  o.config <|> Config.discover t (pathOf dir)

/-- The configuration of a command, which has no faults. -/
inductive Configured (o : TargetOptions) (t : FileTree) (dir : Location) : Config → Prop
  /-- It is read from a file. -/
  | read {p : Path} {text : Text} {settings : Config} (hp : o.source? t dir = some p)
      (hread : t.readText p = .ok text) (hparse : Config.parse text = .ok settings) :
      Configured o t dir settings
  /-- There is no file, and it is the default one. -/
  | default (hp : o.source? t dir = none) : Configured o t dir {}

/-- The path of the root: as given, else as configured, else the directory. -/
def rootPath (o : TargetOptions) (settings : Config) (dir : Location) : Path :=
  (o.root <|> settings.target.root).getD (pathOf dir)

/-- The target of a command by this configuration. -/
inductive HasTarget (o : TargetOptions) (s : Surroundings) (settings : Config) : Path → Prop
  /-- It is given. -/
  | given {p : Path} (h : o.file = some p) : HasTarget o s settings p
  /-- It is named by the environment. -/
  | named {p : Path} (h : o.file = none) (hnamed : s.target = some p) (hne : p ≠ []) :
      HasTarget o s settings p
  /-- It is configured. -/
  | configured (h : o.file = none) (hnamed : s.target = none ∨ s.target = some []) :
      HasTarget o s settings settings.target.file

/-- A command in the directory has a configuration, a root and a target. -/
structure SetUp (o : TargetOptions) (s : Surroundings) (t : FileTree) (dir : Location)
    (settings : Config) (root : Location) (target : Path) : Prop where
  /-- The configuration. -/
  config : o.Configured t dir settings
  /-- The root, which the path of the root leads to. -/
  root : t.resolve (o.rootPath settings dir) = .ok root
  /-- The target, as it is asked for. -/
  target : o.HasTarget s settings target

/-- A command in the directory has no configuration or no root. -/
inductive NotSetUp (o : TargetOptions) (t : FileTree) (dir : Location) : Prop
  /-- The configuration cannot be read, or is no configuration, or has faults. -/
  | config {p : Path} (hp : o.source? t dir = some p)
      (h : ∀ text, t.readText p = .ok text → ∀ settings, Config.parse text ≠ .ok settings)
  /-- The path of the root leads nowhere. -/
  | root {settings : Config} (hconfig : o.Configured t dir settings)
      (h : ∀ root, t.resolve (o.rootPath settings dir) ≠ .ok root)

variable {o : TargetOptions} {s : Surroundings} {t : FileTree} {dir root : Location}
  {settings : Config} {target : Path}

theorem exists_load_iff : (∃ found, Config.loadOrDefault t o.config (pathOf dir) =
    .ok (settings, found)) ↔ o.Configured t dir settings := by
  unfold Config.loadOrDefault
  constructor
  · rintro ⟨found, hload⟩
    split at hload
    · rename_i hp
      cases hload
      exact .default hp
    · rename_i p hp
      unfold Config.load Config.ofText at hload
      cases hread : t.readText p with
      | error cause =>
        rw [hread] at hload
        cases hload
      | ok text =>
        rw [hread] at hload
        dsimp only at hload
        cases hparse : Config.parse text with
        | error fault =>
          rw [hparse] at hload
          cases hload
        | ok c =>
          rw [hparse] at hload
          cases hload
          exact .read hp hread hparse
  · intro h
    cases h with
    | read hp hread hparse =>
      rw [source?] at hp
      simp only [hp, Config.load, Config.ofText, hread, hparse]
      exact ⟨_, rfl⟩
    | default hp =>
      rw [source?] at hp
      simp only [hp]
      exact ⟨_, rfl⟩

theorem chooseTarget_eq_iff :
    chooseTarget o.file s.target settings.target.file = target ↔ o.HasTarget s settings target := by
  constructor
  · rintro rfl
    unfold chooseTarget
    split
    · rename_i hfile
      exact .given hfile
    · rename_i p hfile hnamed
      split
      · rename_i hempty
        rw [List.isEmpty_iff.1 hempty] at hnamed
        exact .configured hfile (.inr hnamed)
      · rename_i hne
        exact .named hfile hnamed fun he => hne (List.isEmpty_iff.2 he)
    · rename_i hfile hnamed
      exact .configured hfile (.inl hnamed)
  · intro h
    cases h with
    | given h => rw [h, chooseTarget]
    | named h hnamed hne =>
      rw [h, hnamed, chooseTarget, if_neg fun he => hne (List.isEmpty_iff.1 he)]
    | configured h hnamed =>
      rcases hnamed with hnamed | hnamed
      · rw [h, hnamed, chooseTarget]
      · rw [h, hnamed]
        rfl

/-- A command that is set up works with just that. -/
theorem SetUp.resolve (h : o.SetUp s t dir settings root target)
    (hdir : t.workingDirectory = some dir) :
    ∃ events, o.resolve s t = (.ok ⟨settings.rules, ⟨root⟩, target⟩, events) := by
  obtain ⟨found, hload⟩ := exists_load_iff.2 h.config
  have hroot := h.root
  rw [rootPath] at hroot
  unfold TargetOptions.resolve
  rw [hdir]
  simp only [hload, Workspace.ofPath, hroot, chooseTarget_eq_iff.2 h.target]
  exact ⟨_, rfl⟩

/-- A command that is not set up fails for the lack of it. -/
theorem NotSetUp.resolve (h : o.NotSetUp t dir) (s : Surroundings)
    (hdir : t.workingDirectory = some dir) :
    ∃ e events, o.resolve s t = (.error e, events) ∧ ∀ cause, e ≠ .patch cause := by
  unfold TargetOptions.resolve
  rw [hdir]
  dsimp only
  cases h with
  | config hp hbad =>
    cases hload : Config.loadOrDefault t o.config (pathOf dir) with
    | error e => exact ⟨_, _, rfl, nofun⟩
    | ok loaded =>
      obtain ⟨settings, found⟩ := loaded
      cases exists_load_iff.1 ⟨found, hload⟩ with
      | read hp' hread hparse =>
        cases hp.symm.trans hp'
        exact absurd hparse (hbad _ hread _)
      | default hp' => cases hp.symm.trans hp'
  | @root settings hconfig hnone =>
    obtain ⟨found, hload⟩ := exists_load_iff.2 hconfig
    rw [hload]
    dsimp only
    cases hroot : t.resolve (o.rootPath settings dir) with
    | ok root => exact absurd hroot (hnone root)
    | error cause =>
      rw [rootPath] at hroot
      rw [Workspace.ofPath, hroot]
      exact ⟨_, _, rfl, nofun⟩

end TargetOptions

section Patch

variable {t : FileTree} {root loc : Location} {rules : Rules} {mode : PatchMode} {target : Path}

namespace Rules

end Rules

end Patch

namespace CommandRun

end CommandRun

namespace Command

variable {c : Command} {s : Surroundings} {t : FileTree} {events : List LogEvent}

variable {dir root loc : Location} {settings : Config} {target : Path}

end Command

end ClientPatch
