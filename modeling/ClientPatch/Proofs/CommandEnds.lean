import ClientPatch.Command.Run

/-!
# How a command ends

A command finds its configuration, its workspace and its target, and then ends in one of three
ways. It does not find what it works with, and nothing but the failure is told; its patch fails
behind the announcement; or its patch has an outcome, and the command tells it and exits well.
The tree is the one that the patch leaves behind. What is printed depends only on what the patch
answers, and what kind of answer that was can be told from the first words.
-/

namespace ClientPatch

open FileTree (pathOf)

/-- What a command works with comes from the configuration that it loads in its directory. -/
theorem TargetOptions.exists_of_resolve {o : TargetOptions} {s : Surroundings} {t : FileTree}
    {r : Resolved} {events : List LogEvent} (h : o.resolve s t = (.ok r, events)) :
    ∃ dir c origin w, t.workingDirectory = some dir ∧
      Config.loadOrDefault t o.config (pathOf dir) = .ok (c, origin) ∧
      Workspace.ofPath t ((o.root <|> c.target.root).getD (pathOf dir)) = .ok w ∧
      r = ⟨c.rules, w, chooseTarget o.file s.target c.target.file⟩ := by
  unfold resolve at h
  split at h
  · cases h
  · rename_i dir hdir
    dsimp only at h
    split at h
    · cases h
    · rename_i c origin hload
      split at h
      · cases h
      · rename_i w hw
        cases h
        exact ⟨dir, c, origin, w, hdir, hload, hw, rfl⟩

/-- The endings of a command. -/
inductive CommandRun.Ends (c : Command) (s : Surroundings) (t : FileTree) : CommandRun → Prop
  /-- It does not find what it works with. -/
  | lost {cause : CommandError} {events : List LogEvent} (log : Text)
      (h : c.target.resolve s t = (.error cause, events)) :
      Ends c s t ⟨cause.status, [], log ++ cause.report s.colors, t⟩
  /-- Its patch fails. -/
  | failed {r : Resolved} {events : List LogEvent} {cause : PatchError} (log : Text)
      (h : c.target.resolve s t = (.ok r, events))
      (hpatch : (r.rules.patchWithin r.workspace c.action.mode r.target t).answer =
        .error cause) :
      Ends c s t ⟨(CommandError.patch cause).status, c.action.announcement s.colors,
        log ++ (CommandError.patch cause).report s.colors,
        (r.rules.patchWithin r.workspace c.action.mode r.target t).tree⟩
  /-- It tells the outcome of its patch. -/
  | told {r : Resolved} {events : List LogEvent} {outcome : PatchOutcome} (log : Text)
      (h : c.target.resolve s t = (.ok r, events))
      (hpatch : (r.rules.patchWithin r.workspace c.action.mode r.target t).answer =
        .ok outcome) :
      Ends c s t ⟨0, c.action.announcement s.colors ++ c.action.told s.colors outcome, log,
        (r.rules.patchWithin r.workspace c.action.mode r.target t).tree⟩

/-- A command comes to one of its endings. -/
theorem Command.run_ends (c : Command) (s : Surroundings) (t : FileTree) :
    (c.run s t).Ends c s t := by
  unfold run
  dsimp only
  split
  · rename_i hresolve
    exact .lost _ hresolve
  · rename_i hresolve
    split
    · rename_i hanswer
      exact .failed _ hresolve hanswer
    · rename_i hanswer
      exact .told _ hresolve hanswer

/-- What the patch of a command answers, when the command finds what it works with. -/
def TargetOptions.answer? (o : TargetOptions) (s : Surroundings) (t : FileTree)
    (mode : PatchMode) : Option (Except PatchError PatchOutcome) :=
  match o.resolve s t with
  | (.error _, _) => none
  | (.ok r, _) => some (r.rules.patchWithin r.workspace mode r.target t).answer

namespace Command

end Command

/-- A text does not begin with one that has another first character. -/
theorem Text.not_isPrefix_of_head? {a b : Text} {c : Char} (ha : a.head? = some c)
    (h : b.head? ≠ some c) : ¬a <+: b := by
  rintro ⟨u, rfl⟩
  rw [List.head?_append, ha] at h
  exact h rfl

namespace PatchOutcome

variable {colors diff : Bool} {o : PatchOutcome} {file : Path}

/-- Only a file that the rules change needs a patch. -/
theorem needs_isPrefix_status_iff :
    "needs patch: ".toList <+: o.status colors ↔ ∃ r, o = .wouldPatch r ∨ o = .patched r := by
  cases o with
  | patched r =>
    exact iff_of_true ((List.prefix_append _ _).trans (List.prefix_append _ _)) ⟨r, Or.inr rfl⟩
  | wouldPatch r =>
    exact iff_of_true ((List.prefix_append _ _).trans (List.prefix_append _ _)) ⟨r, Or.inl rfl⟩
  | unchanged other =>
    exact iff_of_false (Text.not_isPrefix_of_head? rfl (show some 'u' ≠ some 'n' by decide))
      (by simp)

end PatchOutcome

namespace Action

variable {colors : Bool} {a : Action} {answer : Option (Except PatchError PatchOutcome)}

variable {file : Path} {diff dryRun : Bool}

end Action

end ClientPatch
