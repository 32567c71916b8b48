import ClientPatch.Patch
import ClientPatch.Proofs.FileReplacement
import ClientPatch.Proofs.WorkspaceCheck

/-!
# What a patch does to the tree

A patch of a file that was found has four endings: it fails, it finds nothing to do, it tells
what it would do, or it rewrites the file. Only the last one changes the tree, and it changes
that one file: all else stays as it was, the links on the way to the file included, and no new
file is left behind, whatever the system refuses before the new file is in its place. A patch that
fails stopped at the reading, at the rules, at the second look of the workspace, or at the writing.
-/

namespace ClientPatch

open FileTree (pathOf)

/-- The rules make `result` of the text `before`, which is read at the real path of a location,
from a file with these permission bits. -/
structure Rules.Applied (rules : Rules) (t : FileTree) (loc : Location) (before : Text)
    (bytesMode written : Nat) (result : Transformed) : Prop where
  /-- The real path leads to its location. -/
  real : t.resolve (pathOf loc) = .ok loc
  /-- The file holds the text. -/
  file : t.node? loc = some (.file (Text.encode before) bytesMode written)
  /-- The rules make the result of it. -/
  transform : rules.transform before = .ok result

/-- The endings of a patch of the file at a real location, where the system refuses some steps of
the writing. -/
inductive PatchRun.Ends (rules : Rules) (mode : PatchMode) (given : Path) (loc : Location)
    (t : FileTree) (refused : Refusals) : PatchRun → Prop
  /-- It fails. -/
  | failed (cause : PatchError) (events : List LogEvent) :
      Ends rules mode given loc t refused ⟨.error cause, t, events⟩
  /-- The rules leave the text of the file alone. -/
  | unchanged {before : Text} {bytesMode written : Nat} {result : Transformed}
      (events : List LogEvent) (h : rules.Applied t loc before bytesMode written result)
      (hsame : result.contents = before) :
      Ends rules mode given loc t refused ⟨.ok (.unchanged given), t, events⟩
  /-- The rules change the text, and nothing is to be written. -/
  | wouldPatch {before : Text} {bytesMode written : Nat} {result : Transformed}
      (events : List LogEvent) (hmode : mode = .dryRun)
      (h : rules.Applied t loc before bytesMode written result)
      (hne : result.contents ≠ before) :
      Ends rules mode given loc t refused ⟨.ok (.wouldPatch ⟨given, before, result.contents,
        result.bannerInserted, result.normalized⟩), t, events⟩
  /-- The rules change the text, no step is refused, and the file is rewritten. -/
  | patched {before : Text} {bytesMode written : Nat} {result : Transformed}
      (events : List LogEvent) (hmode : mode = .write)
      (h : rules.Applied t loc before bytesMode written result)
      (hne : result.contents ≠ before) (hgranted : ∀ s, refused s = none) :
      Ends rules mode given loc t refused ⟨.ok (.patched ⟨given, before, result.contents,
        result.bannerInserted, result.normalized⟩),
        t.put loc (.file (Text.encode result.contents) bytesMode t.now), events⟩

/-- The patch told truly what it did to the tree: the tree is the same, or the patch says that
it was written, and the file that `p` leads to is rewritten by the rules. -/
structure PatchRun.Framed (rules : Rules) (given p : Path) (t : FileTree) (refused : Refusals)
    (run : PatchRun) : Prop where
  /-- The tree is the same exactly when the patch does not say that it was written. -/
  kept : run.tree = t ↔ ∀ r, run.answer ≠ .ok (.patched r)
  /-- If it says so, the system refused nothing. -/
  granted : ∀ r, run.answer = .ok (.patched r) → ∀ s, refused s = none
  /-- If it says so, the rules changed the text of one file, and that file was rewritten. -/
  rewritten : ∀ r, run.answer = .ok (.patched r) →
    r.file = given ∧ r.patched ≠ r.before ∧
      rules.transform r.before = .ok ⟨r.patched, r.bannerInserted, r.normalized⟩ ∧
      ∃ loc, t.resolve p = .ok loc ∧ t.Rewritten run.tree loc r.before r.patched

/-- Why a patch of a file that was found fails. -/
inductive PatchError.StopsAt (rules : Rules) (workspace : Option Workspace)
    (found : LocatedTarget) (t : FileTree) : PatchError → Prop
  /-- The file cannot be read. -/
  | unread {cause : FileFault} (h : t.readText found.canonical = .error cause) :
      StopsAt rules workspace found t (.read found.given cause)
  /-- The edits of the rules are refused. -/
  | refused {before : Text} {cause : EditError} (hread : t.readText found.canonical = .ok before)
      (h : rules.transform before = .error cause) : StopsAt rules workspace found t (.edit cause)
  /-- The second look of the workspace does not pass. -/
  | unseen {w : Workspace} {cause : WorkspaceError} (hw : workspace = some w)
      (h : w.revalidate t found = .error cause) :
      StopsAt rules workspace found t (.workspace cause)
  /-- The file cannot be written. -/
  | unwritten {contents : Text} {cause : FileFault}
      (h : (t.replaceFile found.canonical (Text.encode contents)).1 = .error cause) :
      StopsAt rules workspace found t (.write found.given cause)

namespace Rules

variable {t : FileTree} {loc : Location}

/-- Behind a second look that passes, a report is written as without a workspace. -/
theorem commit_of_revalidate {w : Workspace} {located : LocatedTarget}
    (h : w.revalidate t located = .ok ()) (r : PatchReport) (refused : Refusals) :
    commit (some w) located r t refused = commit none located r t refused := by
  rw [commit, commit]
  simp only [h]

/-- What comes of the writing of a report: the second look of the workspace does not pass, the file
is replaced, or it cannot be. -/
theorem commit_answers (workspace : Option Workspace) (found : LocatedTarget) (r : PatchReport)
    (t : FileTree) (refused : Refusals) :
    (∃ w e, workspace = some w ∧ w.revalidate t found = .error e ∧
      commit workspace found r t refused = (.error (.workspace e), t)) ∨
    (∃ after, t.replaceFile found.canonical (Text.encode r.patched) refused = (.ok (), after) ∧
      commit workspace found r t refused = (.ok (), after)) ∨
    ∃ cause after,
      t.replaceFile found.canonical (Text.encode r.patched) refused = (.error cause, after) ∧
        commit workspace found r t refused = (.error (.write found.given cause), after) := by
  have hcommit : (∃ w e, workspace = some w ∧ w.revalidate t found = .error e ∧
      commit workspace found r t refused = (.error (.workspace e), t)) ∨
      commit workspace found r t refused = commit none found r t refused := by
    cases workspace with
    | none => exact Or.inr rfl
    | some w =>
      cases hcheck : w.revalidate t found with
      | error e => exact Or.inl ⟨w, e, rfl, hcheck, by rw [commit]; simp only [hcheck]⟩
      | ok _ => exact Or.inr (commit_of_revalidate hcheck r refused)
  rcases hcommit with hunseen | hcommit
  · exact Or.inl hunseen
  · rw [hcommit]
    rcases hreplace : t.replaceFile found.canonical (Text.encode r.patched) refused with
      ⟨answer, after⟩
    cases answer with
    | ok _ => exact Or.inr (Or.inl ⟨after, rfl, by rw [commit]; simp only [hreplace]⟩)
    | error cause => exact Or.inr (Or.inr ⟨cause, after, rfl, by rw [commit]; simp only [hreplace]⟩)

/-- A report at the real path of a location is written, or nothing is, whatever the system refuses
before the new file is in its place. -/
theorem commit_pathOf (h : t.IsReal loc) (hp : t.resolve (pathOf loc) = .ok loc)
    (workspace : Option Workspace) (given : Path) (r : PatchReport) (refused : Refusals)
    (hstamp : refused .stamp = none) :
    (∃ old mode written, t.node? loc = some (.file old mode written) ∧
      commit workspace ⟨given, pathOf loc⟩ r t refused =
        (.ok (), t.put loc (.file (Text.encode r.patched) mode t.now))) ∨
    ∃ e, commit workspace ⟨given, pathOf loc⟩ r t refused = (.error e, t) := by
  have hfile := FileTree.replaceFile_pathOf h hp (Text.encode r.patched) refused hstamp
  rcases commit_answers workspace ⟨given, pathOf loc⟩ r t refused with
    ⟨w, e, -, -, hcommit⟩ | ⟨after, hreplace, hcommit⟩ | ⟨cause, after, hreplace, hcommit⟩
  · exact Or.inr ⟨_, hcommit⟩
  · rcases hfile with ⟨old, mode, written, hnode, hfile⟩ | ⟨e, hfile⟩
    · cases hreplace.symm.trans hfile
      exact Or.inl ⟨old, mode, written, hnode, hcommit⟩
    · cases hreplace.symm.trans hfile
  · rcases hfile with ⟨old, mode, written, hnode, hfile⟩ | ⟨e, hfile⟩
    · cases hreplace.symm.trans hfile
    · cases hreplace.symm.trans hfile
      exact Or.inr ⟨_, hcommit⟩

/-- A report is written only if the system refuses nothing. -/
theorem granted_of_commit {workspace : Option Workspace} {found : LocatedTarget} {r : PatchReport}
    {refused : Refusals} (h : (commit workspace found r t refused).1 = .ok ()) (s : ReplaceStep) :
    refused s = none := by
  rcases commit_answers workspace found r t refused with
    ⟨w, e, -, -, hcommit⟩ | ⟨after, hreplace, -⟩ | ⟨cause, after, -, hcommit⟩
  · rw [hcommit] at h
    cases h
  · exact FileTree.granted_of_replaceFile (congrArg Prod.fst hreplace) s
  · rw [hcommit] at h
    cases h

theorem stopsAt_of_commit (rules : Rules) {workspace : Option Workspace} {found : LocatedTarget}
    {r : PatchReport} {e : PatchError} (h : (commit workspace found r t).1 = .error e) :
    e.StopsAt rules workspace found t := by
  rcases commit_answers workspace found r t noRefusals with
    ⟨w, e, hw, hcheck, hcommit⟩ | ⟨after, -, hcommit⟩ | ⟨cause, after, hreplace, hcommit⟩
  · rw [hcommit] at h
    cases h
    exact .unseen hw hcheck
  · rw [hcommit] at h
    cases h
  · rw [hcommit] at h
    cases h
    exact .unwritten (congrArg Prod.fst hreplace)

/-- A patch of a file that was found fails at one of its steps. -/
theorem stopsAt_of_patchLocated {rules : Rules} {workspace : Option Workspace} {mode : PatchMode}
    {found : LocatedTarget} {e : PatchError}
    (h : (rules.patchLocated workspace mode found t).answer = .error e) :
    e.StopsAt rules workspace found t := by
  unfold patchLocated at h
  split at h
  · rename_i hread
    cases h
    exact .unread hread
  · rename_i hread
    split at h
    · rename_i htransform
      cases h
      exact .refused hread htransform
    · dsimp only at h
      split at h
      · cases h
      · cases mode with
        | dryRun => cases h
        | write =>
          dsimp only at h
          split at h
          · rename_i hcommit
            cases h
            exact stopsAt_of_commit rules (congrArg Prod.fst hcommit)
          · cases h

/-- A patch of the file at a real location comes to one of the endings. -/
theorem patchLocated_ends (rules : Rules) (workspace : Option Workspace) (mode : PatchMode)
    (given : Path) (h : t.IsReal loc) (refused : Refusals) (hstamp : refused .stamp = none) :
    PatchRun.Ends rules mode given loc t refused
      (rules.patchLocated workspace mode ⟨given, pathOf loc⟩ t refused) := by
  unfold patchLocated
  dsimp only
  cases hread : t.readText (pathOf loc) with
  | error cause => exact .failed _ _
  | ok before =>
    obtain ⟨hp, bytesMode, written, hfile⟩ := h.readText_eq_ok hread
    dsimp only
    cases htransform : rules.transform before with
    | error e => exact .failed _ _
    | ok result =>
      have happlied : rules.Applied t loc before bytesMode written result :=
        ⟨hp, hfile, htransform⟩
      dsimp only
      unfold report
      by_cases hsame : result.contents = before
      · simp only [if_pos hsame]
        exact .unchanged _ happlied hsame
      · simp only [if_neg hsame]
        cases mode with
        | dryRun => exact .wouldPatch _ rfl happlied hsame
        | write =>
          dsimp only
          rcases commit_pathOf h hp workspace given ⟨given, before, result.contents,
            result.bannerInserted, result.normalized⟩ refused hstamp with
            ⟨old, m, s, hnode, hcommit⟩ | ⟨e, hcommit⟩
          · rw [hfile] at hnode
            cases hnode
            rw [hcommit]
            exact .patched _ rfl happlied hsame (granted_of_commit (congrArg Prod.fst hcommit))
          · rw [hcommit]
            exact .failed _ _

end Rules

namespace PatchRun

variable {rules : Rules} {mode : PatchMode} {given p : Path} {t : FileTree} {loc : Location}
  {refused : Refusals} {run : PatchRun}

/-- A failed patch changes nothing. -/
theorem framed_failed (rules : Rules) (given p : Path) (t : FileTree) (refused : Refusals)
    (cause : PatchError) (events : List LogEvent) :
    Framed rules given p t refused ⟨.error cause, t, events⟩ where
  kept := ⟨fun _ => nofun, fun _ => rfl⟩
  granted _ h := nomatch h
  rewritten _ h := nomatch h

/-- What happened on the way is no part of the ending. -/
theorem Ends.with_events (h : Ends rules mode given loc t refused run) (events : List LogEvent) :
    Ends rules mode given loc t refused { run with events := events } := by
  cases h with
  | failed cause _ => exact .failed cause events
  | unchanged _ h hsame => exact .unchanged events h hsame
  | wouldPatch _ hmode h hne => exact .wouldPatch events hmode h hne
  | patched _ hmode h hne hgranted => exact .patched events hmode h hne hgranted

theorem Ends.framed (h : Ends rules mode given loc t refused run) (hp : t.resolve p = .ok loc) :
    run.Framed rules given p t refused := by
  cases h with
  | failed cause events => exact framed_failed rules given p t refused cause events
  | unchanged => exact ⟨⟨fun _ => nofun, fun _ => rfl⟩, nofun, nofun⟩
  | wouldPatch => exact ⟨⟨fun _ => nofun, fun _ => rfl⟩, nofun, nofun⟩
  | patched events hmode happlied hne hgranted =>
    refine ⟨⟨fun h => absurd h (FileTree.put_file_ne happlied.file), fun h => absurd rfl (h _)⟩,
      fun _ _ => hgranted, fun r hr => ?_⟩
    cases hr
    exact ⟨rfl, hne, happlied.transform, loc, hp, FileTree.rewritten_put happlied.file⟩

end PatchRun

namespace Rules

variable {t : FileTree}

/-- A patch of any path fails without a change, or comes to one of the endings at the location
that the path leads to. -/
theorem patch_ends (h : t.WellFormed) (rules : Rules) (mode : PatchMode) (target : Path)
    (refused : Refusals) (hstamp : refused .stamp = none) :
    (∃ cause events, rules.patch mode target t refused = ⟨.error cause, t, events⟩) ∨
      ∃ loc, t.resolve target = .ok loc ∧
        PatchRun.Ends rules mode target loc t refused (rules.patch mode target t refused) := by
  unfold patch
  split
  · cases hp : t.resolve target with
    | error cause => exact Or.inl ⟨_, _, rfl⟩
    | ok loc =>
      exact Or.inr ⟨loc, rfl,
        patchLocated_ends rules none mode target (h.isReal_of_resolve hp) refused hstamp⟩
  · exact Or.inl ⟨_, _, rfl⟩

/-- A patch within a workspace does so at a location that the workspace admits. -/
theorem patchWithin_ends (h : t.WellFormed) (rules : Rules) (w : Workspace) (mode : PatchMode)
    (target : Path) (refused : Refusals) (hstamp : refused .stamp = none) :
    (∃ cause events, rules.patchWithin w mode target t refused = ⟨.error cause, t, events⟩) ∨
      ∃ loc, t.resolve (w.pathTo target) = .ok loc ∧ w.Admits loc ∧
        PatchRun.Ends rules mode target loc t refused
          (rules.patchWithin w mode target t refused) := by
  unfold patchWithin
  split
  · exact Or.inl ⟨_, _, rfl⟩
  · exact Or.inl ⟨_, _, rfl⟩
  · rename_i located hlocate
    obtain ⟨loc, hp, hadmits, rfl⟩ := Workspace.locate_eq_some_iff.1 hlocate
    have hends := patchLocated_ends rules (some w) mode target (h.isReal_of_resolve hp) refused
      hstamp
    exact Or.inr ⟨loc, hp, hadmits, hends.with_events _⟩

/-- Whatever the tree, the rules, the target and the mode, with or without a workspace, and whatever
the system refuses but the date of a file that is in its place, a patch leaves the tree as it was
unless it says that it was written; then nothing was refused, and it rewrote the file that the
target leads to, from the text it read to what the rules make of it, and nothing else. -/
theorem patch_framed {t : FileTree} (h : t.WellFormed) (rules : Rules) (mode : PatchMode)
    (target : Path) (refused : Refusals) (hstamp : refused .stamp = none) :
    (rules.patch mode target t refused).Framed rules target target t refused ∧
      ∀ w : Workspace, (rules.patchWithin w mode target t refused).Framed rules target
        (w.pathTo target) t refused := by
  constructor
  · rcases patch_ends h rules mode target refused hstamp with
      ⟨cause, events, hrun⟩ | ⟨loc, hp, hends⟩
    · rw [hrun]
      exact PatchRun.framed_failed rules target target t refused cause events
    · exact hends.framed hp
  · intro w
    rcases patchWithin_ends h rules w mode target refused hstamp with
      ⟨cause, events, hrun⟩ | ⟨loc, hp, -, hends⟩
    · rw [hrun]
      exact PatchRun.framed_failed rules target (w.pathTo target) t refused cause events
    · exact hends.framed hp

/-- A file in a directory, and a link to it beside the directory. -/
private def linkedTree : FileTree where
  entries := [([['d']], .directory {}),
    ([['d'], ['f']], .file (Text.encode ".record(x".toList) 420 0),
    ([['l']], .link ['d', '/', 'f'])]
  workingDirectory := some []

private theorem wellFormed_linkedTree : linkedTree.WellFormed :=
  .of_entries (by decide +kernel) (by decide +kernel)

/-- A file is rewritten through a link, from the root and within its directory. When the disk is
full or the rename is not permitted, the patch fails and the new file is gone. -/
theorem patch_framed_link :
    let rules := ofTexts none (some ['k'])
    let full := refusing .fill .noSpace
    let denied := refusing .rename .denied
    linkedTree.WellFormed ∧ full .stamp = none ∧ denied .stamp = none ∧
      (rules.patch .write ['/', 'l'] linkedTree).Framed rules ['/', 'l'] ['/', 'l'] linkedTree
        noRefusals ∧
      (rules.patchWithin ⟨[['d']]⟩ .write ['.', '.', '/', 'l'] linkedTree).Framed rules
        ['.', '.', '/', 'l'] "/d/../l".toList linkedTree noRefusals ∧
      (rules.patch .write ['/', 'l'] linkedTree).answer.toOption =
        some (.patched ⟨['/', 'l'], ".record(x".toList, ".record(k, x".toList, false,
          [⟨0, 8, 1, .method⟩]⟩) ∧
      (rules.patch .write ['/', 'l'] linkedTree full).answer =
        .error (.write ['/', 'l'] .noSpace) ∧
      (rules.patch .write ['/', 'l'] linkedTree full).tree = linkedTree ∧
      (rules.patchWithin ⟨[['d']]⟩ .write ['f'] linkedTree denied).answer =
        .error (.write ['f'] .denied) ∧
      (rules.patchWithin ⟨[['d']]⟩ .write ['f'] linkedTree denied).tree = linkedTree := by
  intro rules full denied
  have hframed := patch_framed wellFormed_linkedTree rules .write
  have hfull : (rules.patch .write ['/', 'l'] linkedTree full).answer =
      .error (.write ['/', 'l'] .noSpace) := by with_unfolding_all rfl
  have hdenied : (rules.patchWithin ⟨[['d']]⟩ .write ['f'] linkedTree denied).answer =
      .error (.write ['f'] .denied) := by with_unfolding_all rfl
  refine ⟨wellFormed_linkedTree, rfl, rfl, (hframed ['/', 'l'] noRefusals rfl).1,
    (hframed ['.', '.', '/', 'l'] noRefusals rfl).2 ⟨[['d']]⟩, by decide +kernel, hfull, ?_,
    hdenied, ?_⟩
  · exact (hframed ['/', 'l'] full rfl).1.kept.2 fun r hr => nomatch hfull.symm.trans hr
  · exact ((hframed ['f'] denied rfl).2 ⟨[['d']]⟩).kept.2 fun r hr =>
      nomatch hdenied.symm.trans hr

end Rules

end ClientPatch
