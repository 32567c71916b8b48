import ClientPatch.Proofs.CommandEnds
import ClientPatch.Proofs.PatchFrame
import ClientPatch.Proofs.RulesSettled

/-!
# Commands after a patch

A command finds everything anew each time: its configuration, its workspace, its target and the
text of it. After a patch all of that is found as before, except the text, which is now the one
that the rules made. They leave it alone, so every later command finds nothing to do and writes
nothing; to write the same bytes again would show in the moment of the file. Only a patch of the
configuration file itself could change what is found.
-/

namespace ClientPatch

open FileTree (pathOf)

variable {t : FileTree} {loc : Location} {bytes bytes' : Bytes}
  {mode mode' written written' : Nat}

namespace Config

theorem discover_put_file (h : t.node? loc = some (.file bytes mode written)) (directory : Path) :
    discover (t.put loc (.file bytes' mode' written')) directory = discover t directory := by
  simp only [discover, FileTree.isFile_put_file h]

/-- What is loaded stays the same when a file is rewritten that it was not loaded from. -/
theorem loadOrDefault_put_file (h : t.node? loc = some (.file bytes mode written))
    {given source : Option Path} {directory : Path} {c : Config}
    (hload : loadOrDefault t given directory = .ok (c, source))
    (hother : ∀ p ∈ source, t.resolve p ≠ .ok loc) :
    loadOrDefault (t.put loc (.file bytes' mode' written')) given directory =
      .ok (c, source) := by
  unfold loadOrDefault at hload ⊢
  rw [discover_put_file h]
  split at hload
  · exact hload
  · rename_i p _
    cases hp : load t p with
    | error e =>
      rw [hp] at hload
      cases hload
    | ok config =>
      rw [hp] at hload
      cases hload
      have hsame : load (t.put loc (.file bytes' mode' written')) p = load t p := by
        rw [load, load, FileTree.readText_put_file_of_ne h (hother p rfl)]
      rw [hsame, hp]

end Config

namespace TargetOptions

variable {o : TargetOptions} {s : Surroundings} {r : Resolved} {source : Option Path}

/-- A command works with `r`, by the configuration that it loads from `source`. -/
structure ResolvesTo (o : TargetOptions) (s : Surroundings) (t : FileTree) (r : Resolved)
    (source : Option Path) : Prop where
  /-- What the command works with. -/
  found : ∃ events, o.resolve s t = (.ok r, events)
  /-- The rules are those of the configuration, and the target is as it was asked for. -/
  loaded : ∃ dir config, t.workingDirectory = some dir ∧
    Config.loadOrDefault t o.config (pathOf dir) = .ok (config, source) ∧
    r.rules = config.rules ∧ r.target = chooseTarget o.file s.target config.target.file

namespace ResolvesTo

/-- After a file was rewritten that is not the configuration, a command works with the same. -/
theorem put_file (h : o.ResolvesTo s t r source)
    (hfile : t.node? loc = some (.file bytes mode written))
    (hother : ∀ p ∈ source, t.resolve p ≠ .ok loc) :
    o.ResolvesTo s (t.put loc (.file bytes' mode' written')) r source := by
  obtain ⟨⟨events, hfound⟩, dir, config, hdir, hload, hchosen⟩ := h
  have hload' : Config.loadOrDefault (t.put loc (.file bytes' mode' written')) o.config
      (pathOf dir) = .ok (config, source) := Config.loadOrDefault_put_file hfile hload hother
  refine ⟨⟨events, ?_⟩, dir, config, hdir, hload', hchosen⟩
  unfold resolve at hfound ⊢
  rw [FileTree.workingDirectory_put, hdir]
  rw [hdir] at hfound
  simp only [hload, hload', Workspace.ofPath, FileTree.resolve_put_file hfile] at hfound ⊢
  exact hfound

end ResolvesTo

/-- A command works with `r` in this tree, and finds nothing to do. -/
structure Settled (o : TargetOptions) (s : Surroundings) (t : FileTree) (r : Resolved) :
    Prop where
  /-- What the command works with. -/
  found : ∃ events, o.resolve s t = (.ok r, events)
  /-- A patch leaves the target alone. -/
  unchanged : ∀ mode, ∃ events, r.rules.patchWithin r.workspace mode r.target t =
    ⟨.ok (.unchanged r.target), t, events⟩

end TargetOptions

namespace Command

variable {c : Command} {s : Surroundings} {r : Resolved}

end Command

end ClientPatch
