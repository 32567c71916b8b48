import ClientPatch.Proofs.PatchFrame

/-!
# Patches within a workspace and without

A target that a workspace finds is patched like the path that it stands for. The two ways differ
in where they look at the file: without a workspace nothing is checked, within one the real
location is checked when it is found and again before it is written. When nobody else changes
the tree the second look passes, because the path of a real location leads to that location
whenever it leads anywhere. What remains is the name under which the file is told.
-/

namespace ClientPatch

open FileTree (pathOf)

/-- The report of the file under another name. -/
def PatchReport.named (file : Path) (r : PatchReport) : PatchReport := { r with file := file }

/-- The outcome of the file under another name. -/
def PatchOutcome.named (file : Path) : PatchOutcome → PatchOutcome
  | .patched r => .patched (r.named file)
  | .wouldPatch r => .wouldPatch (r.named file)
  | .unchanged _ => .unchanged file

/-- The failure of the file under another name. What the rules and the workspace refuse is not
told by that name. -/
def PatchError.named (file : Path) : PatchError → PatchError
  | .missing _ => .missing file
  | .read _ cause => .read file cause
  | .write _ cause => .write file cause
  | .edit cause => .edit cause
  | .workspace cause => .workspace cause

/-- The answer of a patch of the file under another name. -/
def PatchRun.answerNamed (file : Path) (run : PatchRun) : Except PatchError PatchOutcome :=
  match run.answer with
  | .error e => .error (e.named file)
  | .ok o => .ok (o.named file)

/-- The outcome of the file under another name, when there is one. -/
theorem PatchRun.toOption_answerNamed (file : Path) (run : PatchRun) :
    (run.answerNamed file).toOption = run.answer.toOption.map (·.named file) := by
  unfold answerNamed
  cases run.answer <;> rfl

/-- Two patches do the same to the tree and answer the same, but for the name of the file: one
tells it as `file`, and the other one as `file'`. -/
structure PatchRun.Agrees (file file' : Path) (run run' : PatchRun) : Prop where
  /-- The first answer is the second one under the first name. -/
  answer : run.answer = run'.answerNamed file
  /-- The second answer is the first one under the second name. -/
  answer' : run'.answer = run.answerNamed file'
  /-- The trees are the same. -/
  tree : run.tree = run'.tree

/-- What happened on the way is no part of the agreement. -/
theorem PatchRun.Agrees.with_events {file file' : Path} {run run' : PatchRun}
    (h : run.Agrees file file' run') (events : List LogEvent) :
    PatchRun.Agrees file file' { run with events := events } run' :=
  ⟨h.answer, h.answer', h.tree⟩

theorem FileTree.pathExists_of_readText {t : FileTree} {p : Path} {text : Text}
    (h : t.readText p = .ok text) : t.pathExists p = true := by
  unfold readText at h
  split at h
  · cases h
  · rename_i loc hp
    exact pathExists_iff.2 ⟨loc, hp⟩

/-- In the tree in which a target was found the second look passes, if the real path leads
anywhere. -/
theorem Workspace.revalidate_of_locate {w : Workspace} {t : FileTree} {target : Path}
    {found : LocatedTarget} (h : t.WellFormed) (hfound : w.locate t target = .ok (some found))
    (hexists : t.pathExists found.canonical = true) : w.revalidate t found = .ok () := by
  obtain ⟨loc, hp, hadmits, rfl⟩ := locate_eq_some_iff.1 hfound
  have hreal := h.isReal_of_resolve hp
  obtain ⟨loc', hleads⟩ := FileTree.pathExists_iff.1 hexists
  obtain rfl := hreal.eq_of_resolve hleads
  exact (revalidate_eq_ok_iff h hreal.named target).2 ⟨hleads, hadmits⟩

namespace Rules

variable {t : FileTree} {w : Workspace} {target : Path} {found : LocatedTarget}

/-- In the tree in which a workspace found the file, its patch is the one without a workspace. -/
theorem patchLocated_within (h : t.WellFormed) (rules : Rules) (mode : PatchMode)
    (hfound : w.locate t target = .ok (some found)) :
    rules.patchLocated (some w) mode found t = rules.patchLocated none mode found t := by
  unfold patchLocated
  cases hread : t.readText found.canonical with
  | error cause => rfl
  | ok before =>
    have hexists := FileTree.pathExists_of_readText hread
    have hcommit : ∀ r, commit (some w) found r t = commit none found r t :=
      fun r => commit_of_revalidate (Workspace.revalidate_of_locate h hfound hexists) r noRefusals
    simp only [hcommit]

/-- A patch within a workspace that found the target is one without, but for its log. -/
theorem patchWithin_of_locate (h : t.WellFormed) (rules : Rules) (mode : PatchMode)
    (hfound : w.locate t target = .ok (some found)) :
    rules.patchWithin w mode target t =
      { rules.patchLocated none mode found t with
        events := PatchEvent.located found :: (rules.patchLocated none mode found t).events } := by
  rw [← patchLocated_within h rules mode hfound, patchWithin, hfound]

/-- Without a workspace, the name of the file is told and nothing more comes of it. -/
theorem patchLocated_agrees (rules : Rules) (mode : PatchMode) (file file' canonical : Path)
    (t : FileTree) :
    PatchRun.Agrees file file' (rules.patchLocated none mode ⟨file, canonical⟩ t)
      (rules.patchLocated none mode ⟨file', canonical⟩ t) := by
  unfold patchLocated
  dsimp only
  cases t.readText canonical with
  | error cause => exact ⟨rfl, rfl, rfl⟩
  | ok before =>
    dsimp only
    cases rules.transform before with
    | error e => exact ⟨rfl, rfl, rfl⟩
    | ok result =>
      dsimp only
      unfold report
      by_cases hsame : result.contents = before
      · simp only [if_pos hsame]
        exact ⟨rfl, rfl, rfl⟩
      · simp only [if_neg hsame]
        cases mode with
        | dryRun => exact ⟨rfl, rfl, rfl⟩
        | write =>
          unfold commit
          dsimp only
          rcases t.replaceFile canonical (Text.encode result.contents) with ⟨answer, t'⟩
          cases answer <;> exact ⟨rfl, rfl, rfl⟩

/-- Without a workspace, no patch of a file that was found is refused. -/
theorem patchLocated_ne_workspace (rules : Rules) (mode : PatchMode) (found : LocatedTarget)
    (t : FileTree) (e : WorkspaceError) :
    (rules.patchLocated none mode found t).answer ≠ .error (.workspace e) := by
  intro h
  cases stopsAt_of_patchLocated h with
  | unseen hw _ => cases hw

/-- A path that leads to a location is patched there. -/
theorem patch_of_resolve (rules : Rules) (mode : PatchMode) {p : Path} {loc : Location}
    (hp : t.resolve p = .ok loc) :
    rules.patch mode p t = rules.patchLocated none mode ⟨p, pathOf loc⟩ t := by
  rw [patch, if_pos (FileTree.pathExists_iff.2 ⟨loc, hp⟩), hp]

/-- Whenever a workspace finds a target, the patch within the workspace and the patch of the path
that the target stands for answer the same, but for the name of the file, and leave the same
tree. No check refuses the file then: the second look passes whenever there is something to look
at, which there is when the file was read. -/
theorem patchWithin_agrees {t : FileTree} (h : t.WellFormed) (rules : Rules) (w : Workspace)
    (mode : PatchMode) {target : Path} {found : LocatedTarget}
    (hfound : w.locate t target = .ok (some found)) :
    (rules.patchWithin w mode target t).Agrees target (w.pathTo target)
        (rules.patch mode (w.pathTo target) t) ∧
      (∀ e, (rules.patchWithin w mode target t).answer ≠ .error (.workspace e)) ∧
      (t.pathExists found.canonical = true → w.revalidate t found = .ok ()) := by
  rw [patchWithin_of_locate h rules mode hfound]
  refine ⟨?_, patchLocated_ne_workspace rules mode found t,
    Workspace.revalidate_of_locate h hfound⟩
  obtain ⟨loc, hp, -, rfl⟩ := Workspace.locate_eq_some_iff.1 hfound
  rw [patch_of_resolve rules mode hp]
  exact (patchLocated_agrees rules mode target (w.pathTo target) (pathOf loc) t).with_events _

/-- A file in a directory of the workspace, and a link to it beside the directory, seen from
within the directory. -/
private def besideTree : FileTree where
  entries := [([['w']], .directory {}), ([['w'], ['d']], .directory {}),
    ([['w'], ['d'], ['f']], .file (Text.encode ".record(x".toList) 420 0),
    ([['w'], ['l']], .link ['d', '/', 'f'])]
  workingDirectory := some [['w'], ['d']]

/-- The report of that file by one of its names. -/
private def besideReport (file : Path) : PatchReport :=
  ⟨file, ".record(x".toList, ".record(k, x".toList, false, [⟨0, 8, 1, .method⟩]⟩

/-- A file is rewritten by way of the directory that holds it and of a link, within the workspace
and without. -/
theorem patchWithin_agrees_link :
    besideTree.WellFormed ∧ Workspace.ofPath besideTree ['.', '.'] = .ok ⟨[['w']]⟩ ∧
      Workspace.locate ⟨[['w']]⟩ besideTree "d/../l".toList =
        .ok (some ⟨"d/../l".toList, "/w/d/f".toList⟩) ∧
      ((ofTexts none (some ['k'])).patch .write "/w/d/../l".toList besideTree).answer.toOption =
        some (.patched (besideReport "/w/d/../l".toList)) ∧
      ((ofTexts none (some ['k'])).patchWithin ⟨[['w']]⟩ .write "d/../l".toList
        besideTree).answer.toOption = some (.patched (besideReport "d/../l".toList)) ∧
      ((ofTexts none (some ['k'])).patchWithin ⟨[['w']]⟩ .write "d/../l".toList besideTree).tree =
        ((ofTexts none (some ['k'])).patch .write "/w/d/../l".toList besideTree).tree ∧
      Workspace.revalidate ⟨[['w']]⟩ besideTree ⟨"d/../l".toList, "/w/d/f".toList⟩ = .ok () := by
  have hwell : besideTree.WellFormed := .of_entries (by decide +kernel) (by decide +kernel)
  have hfound : Workspace.locate ⟨[['w']]⟩ besideTree "d/../l".toList =
      .ok (some ⟨"d/../l".toList, "/w/d/f".toList⟩) := rfl
  have hpatch : ((ofTexts none (some ['k'])).patch .write "/w/d/../l".toList
      besideTree).answer.toOption = some (.patched (besideReport "/w/d/../l".toList)) := by
    decide +kernel
  obtain ⟨hagrees, -, hlook⟩ :=
    patchWithin_agrees hwell (ofTexts none (some ['k'])) ⟨[['w']]⟩ .write hfound
  refine ⟨hwell, rfl, hfound, hpatch, ?_, hagrees.tree, hlook (by decide +kernel)⟩
  have hanswer := congrArg Except.toOption hagrees.answer
  rw [PatchRun.toOption_answerNamed] at hanswer
  exact hanswer.trans (congrArg (Option.map (·.named "d/../l".toList)) hpatch)

end Rules

end ClientPatch
