import ClientPatch.Proofs.PatchFrame
import Mathlib

/-!
# A patch while others change the tree

Between the steps of a patch others may change the tree in any way: the file may be gone, or
stand elsewhere, or a directory on the way to it may have become a link. So a patch within a
workspace is taken apart into its steps, and a run of it is a list of turns, its own and those
of others. The last look and the write are one step. What carries the argument is that a patch
remembers a real path, and that a real path leads to its own location or to another one, but
never through a link to its own.
-/

namespace ClientPatch

open FileTree (pathOf)

/-- How far a patch within a workspace has come, with all that it remembers. -/
inductive PatchStage where
  /-- The target is to be found. -/
  | begun
  /-- The target was found, and its text is to be read. -/
  | located (target : LocatedTarget)
  /-- The text was read, and the rules are to be applied. -/
  | loaded (target : LocatedTarget) (before : Text)
  /-- It is known what is to be written, and it is to be written after a last look. -/
  | planned (target : LocatedTarget) (report : PatchReport)
  /-- The patch is over. -/
  | ended (answer : Except PatchError PatchOutcome)

namespace PatchStage

/-- The target that was found, as long as the patch works on it. -/
def target? : PatchStage → Option LocatedTarget
  | .located target => some target
  | .loaded target _ => some target
  | .planned target _ => some target
  | _ => none

/-- What comes behind the reading of a text. -/
def ofText (rules : Rules) (mode : PatchMode) (target : LocatedTarget) (before : Text) :
    PatchStage :=
  match rules.transform before with
  | .error e => .ended (.error (.edit e))
  | .ok result =>
    match Rules.report target.given before result with
    | none => .ended (.ok (.unchanged target.given))
    | some r =>
      match mode with
      | .dryRun => .ended (.ok (.wouldPatch r))
      | .write => .planned target r

end PatchStage

/-- A patch at some stage, and the tree at that moment. -/
structure PatchState where
  /-- How far the patch has come. -/
  stage : PatchStage
  /-- The tree. -/
  tree : FileTree

/-- What happens next. -/
inductive PatchTurn where
  /-- The patch takes its next step. -/
  | own
  /-- Others leave this tree behind. -/
  | others (tree : FileTree)

namespace Rules

variable (rules : Rules) (w : Workspace) (mode : PatchMode) (target : Path)

/-- The next step of a patch within a workspace. Nothing comes between the last look and the
write. -/
def advance (s : PatchState) : PatchState :=
  match s.stage with
  | .begun =>
    match w.locate s.tree target with
    | .error e => ⟨.ended (.error (.workspace e)), s.tree⟩
    | .ok none => ⟨.ended (.error (.missing target)), s.tree⟩
    | .ok (some found) => ⟨.located found, s.tree⟩
  | .located found =>
    match s.tree.readText found.canonical with
    | .error cause => ⟨.ended (.error (.read found.given cause)), s.tree⟩
    | .ok before => ⟨.loaded found before, s.tree⟩
  | .loaded found before => ⟨.ofText rules mode found before, s.tree⟩
  | .planned found r =>
    match commit (some w) found r s.tree with
    | (.error e, t) => ⟨.ended (.error e), t⟩
    | (.ok (), t) => ⟨.ended (.ok (.patched r)), t⟩
  | .ended _ => s

/-- What one turn makes of a state. -/
def turn (s : PatchState) : PatchTurn → PatchState
  | .own => rules.advance w mode target s
  | .others t => { s with tree := t }

/-- What turns make of a state, one after another. -/
def turns : List PatchTurn → PatchState → PatchState
  | [], s => s
  | u :: us, s => turns us (rules.turn w mode target s u)

/-- Left alone, a patch comes to its end in four steps. -/
theorem turns_own (t : FileTree) :
    rules.turns w mode target [.own, .own, .own, .own] ⟨.begun, t⟩ =
      ⟨.ended (rules.patchWithin w mode target t).answer,
        (rules.patchWithin w mode target t).tree⟩ := by
  simp only [turns, turn]
  unfold patchWithin
  cases hlocate : w.locate t target with
  | error e => simp only [advance, hlocate]
  | ok found =>
    cases found with
    | none => simp only [advance, hlocate]
    | some found =>
      unfold patchLocated
      cases hread : t.readText found.canonical with
      | error cause => simp only [advance, hlocate, hread]
      | ok before =>
        cases htransform : rules.transform before with
        | error e => simp only [advance, hlocate, hread, PatchStage.ofText, htransform]
        | ok result =>
          cases hreport : report found.given before result with
          | none =>
            simp only [advance, hlocate, hread, PatchStage.ofText, htransform, hreport]
          | some r =>
            cases mode with
            | dryRun =>
              simp only [advance, hlocate, hread, PatchStage.ofText, htransform, hreport]
            | write =>
              simp only [advance, hlocate, hread, PatchStage.ofText, htransform, hreport]
              rcases commit (some w) found r t with ⟨answer, after⟩
              cases answer <;> rfl

end Rules

/-- What holds at every moment: the tree is one, and the patch remembers a real path. -/
structure PatchState.Sound (s : PatchState) : Prop where
  /-- The tree is well formed. -/
  tree : s.tree.WellFormed
  /-- The path that is remembered is the one of a location. -/
  found : ∀ found, s.stage.target? = some found →
    ∃ loc : Location, loc.IsNamed ∧ found.canonical = pathOf loc

/-- What an own step did to the tree: nothing, or it wrote what was planned to one file, really
found within the workspace at that moment. -/
structure PatchState.Confined (w : Workspace) (s s' : PatchState) : Prop where
  /-- When the last look passes, the remembered path leads to its own location without any link,
  and the workspace admits it. There the file is rewritten or nothing is, and no other location
  changes. -/
  written : ∀ found r, s.stage = .planned found r → w.revalidate s.tree found = .ok () →
    ∃ loc, found.canonical = pathOf loc ∧ s.tree.resolve found.canonical = .ok loc ∧
      (∀ a, a <+: loc → ∀ link, s.tree.node? a ≠ some (.link link)) ∧ w.Admits loc ∧
      (∀ a, a ≠ loc → s'.tree.node? a = s.tree.node? a) ∧
      (s'.tree = s.tree ∨ ∃ old mode written, s.tree.node? loc = some (.file old mode written) ∧
        s'.tree.node? loc = some (.file (Text.encode r.patched) mode s.tree.now))
  /-- When the last look fails, the patch is over and nothing is written. -/
  refused : ∀ found r e, s.stage = .planned found r → w.revalidate s.tree found = .error e →
    s' = ⟨.ended (.error (.workspace e)), s.tree⟩
  /-- Before and behind the write the tree is the same. -/
  idle : (∀ found r, s.stage ≠ .planned found r) → s'.tree = s.tree

namespace Rules

variable (rules : Rules) (w : Workspace) (mode : PatchMode) (target : Path) {s : PatchState}
  {t : FileTree} {loc : Location}

/-- Only the write changes the tree. -/
theorem tree_advance_of_not_planned (h : ∀ found r, s.stage ≠ .planned found r) :
    (rules.advance w mode target s).tree = s.tree := by
  obtain ⟨stage, t⟩ := s
  cases stage with
  | begun =>
    unfold advance
    dsimp only
    split <;> rfl
  | located found =>
    unfold advance
    dsimp only
    split <;> rfl
  | loaded found before => rfl
  | planned found r => exact absurd rfl (h found r)
  | ended answer => rfl

/-- The last look fails, and nothing is written; or the real path leads to its own location,
which the workspace admits, and the file there is rewritten or nothing is. -/
theorem commit_cases (h : t.WellFormed) (hloc : loc.IsNamed) (given : Path) (r : PatchReport) :
    (∃ e, w.revalidate t ⟨given, pathOf loc⟩ = .error e ∧
      commit (some w) ⟨given, pathOf loc⟩ r t = (.error (.workspace e), t)) ∨
    t.resolve (pathOf loc) = .ok loc ∧ w.Admits loc ∧
      ((∃ old mode written, t.node? loc = some (.file old mode written) ∧
        commit (some w) ⟨given, pathOf loc⟩ r t =
          (.ok (), t.put loc (.file (Text.encode r.patched) mode t.now))) ∨
      ∃ e, commit (some w) ⟨given, pathOf loc⟩ r t = (.error e, t)) := by
  cases hcheck : w.revalidate t ⟨given, pathOf loc⟩ with
  | error e => exact Or.inl ⟨e, rfl, by rw [commit]; simp only [hcheck]⟩
  | ok _ =>
    obtain ⟨hp, hadmits⟩ := (Workspace.revalidate_eq_ok_iff h hloc given).1 hcheck
    exact Or.inr ⟨hp, hadmits, commit_pathOf (h.isReal_of_resolve hp) hp (some w) given r
      noRefusals rfl⟩

/-- An own step keeps what holds at every moment. -/
theorem sound_advance (h : s.Sound) : (rules.advance w mode target s).Sound := by
  obtain ⟨stage, t⟩ := s
  obtain ⟨htree, hfound⟩ := h
  cases stage with
  | begun =>
    unfold advance
    dsimp only
    split
    · exact ⟨htree, fun _ h => nomatch h⟩
    · exact ⟨htree, fun _ h => nomatch h⟩
    · rename_i found hlocate
      obtain ⟨loc, hp, -, rfl⟩ := Workspace.locate_eq_some_iff.1 hlocate
      refine ⟨htree, fun _ h => ?_⟩
      cases h
      exact ⟨loc, (htree.isReal_of_resolve hp).named, rfl⟩
  | located found =>
    unfold advance
    dsimp only
    split
    · exact ⟨htree, fun _ h => nomatch h⟩
    · exact ⟨htree, hfound⟩
  | loaded found before =>
    refine ⟨htree, fun found' h => hfound found' ?_⟩
    change (PatchStage.ofText rules mode found before).target? = some found' at h
    unfold PatchStage.ofText at h
    split at h
    · cases h
    · split at h
      · cases h
      · split at h
        · cases h
        · exact h
  | planned found r =>
    -- Of what stands in the tree by now, nothing is known but what the last look tells.
    obtain ⟨given, canonical⟩ := found
    obtain ⟨loc, hloc, hcanonical⟩ := hfound _ rfl
    obtain rfl : canonical = pathOf loc := hcanonical
    rcases commit_cases w htree hloc given r with ⟨e, -, hcommit⟩ |
      ⟨-, -, ⟨old, m, written, hnode, hcommit⟩ | ⟨e, hcommit⟩⟩
    · simp only [advance, hcommit]
      exact ⟨htree, fun _ h => nomatch h⟩
    · simp only [advance, hcommit]
      exact ⟨htree.put_file hnode, fun _ h => nomatch h⟩
    · simp only [advance, hcommit]
      exact ⟨htree, fun _ h => nomatch h⟩
  | ended answer => exact ⟨htree, hfound⟩

/-- Turns keep what holds at every moment, whatever others leave behind. -/
theorem sound_turns {us : List PatchTurn} (hus : ∀ t, .others t ∈ us → t.WellFormed)
    (h : s.Sound) : (rules.turns w mode target us s).Sound := by
  induction us generalizing s with
  | nil => exact h
  | cons u us ih =>
    refine ih (fun t ht => hus t (List.mem_cons_of_mem u ht)) ?_
    cases u with
    | own => exact rules.sound_advance w mode target h
    | others t => exact ⟨hus t List.mem_cons_self, h.found⟩

/-- An own step is confined to the workspace. -/
theorem confined_advance (h : s.Sound) : s.Confined w (rules.advance w mode target s) where
  written found r hstage hcheck := by
    obtain ⟨stage, t⟩ := s
    obtain ⟨htree, hfound⟩ := h
    obtain rfl : stage = .planned found r := hstage
    obtain ⟨given, canonical⟩ := found
    obtain ⟨loc, hloc, hcanonical⟩ := hfound _ rfl
    obtain rfl : canonical = pathOf loc := hcanonical
    rcases commit_cases w htree hloc given r with ⟨e, herror, -⟩ | ⟨hp, hadmits, hwrite⟩
    · rw [hcheck] at herror
      cases herror
    · have hunlinked : ∀ a, a <+: loc → ∀ link, t.node? a ≠ some (.link link) :=
        fun a ha => (htree.isReal_of_resolve hp).not_link ha
      refine ⟨loc, rfl, hp, hunlinked, hadmits, ?_⟩
      rcases hwrite with ⟨old, m, written, hnode, hcommit⟩ | ⟨e, hcommit⟩
      · simp only [advance, hcommit]
        refine ⟨fun a ha => ?_, Or.inr ⟨old, m, written, hnode, FileTree.node?_put_file hnode _⟩⟩
        rw [FileTree.node?_put, if_neg fun hc => ha hc.1]
      · have hstep : rules.advance w mode target ⟨.planned ⟨given, pathOf loc⟩ r, t⟩ =
            ⟨.ended (.error e), t⟩ := by simp only [advance, hcommit]
        rw [hstep]
        exact ⟨fun _ _ => rfl, Or.inl rfl⟩
  refused found r e hstage hcheck := by
    obtain ⟨stage, t⟩ := s
    obtain rfl : stage = .planned found r := hstage
    simp only [advance, commit, hcheck]
  idle hstage := rules.tree_advance_of_not_planned w mode target hstage

/-- A target that was found passes the last look in another tree exactly when its real path
still leads to its own location, without a link on the way, and that is one of the workspace.
So whatever others do between the steps of a patch, the patch writes to no other place than to
a file of the workspace, and when the last look fails it writes nothing. Left alone, the steps
are the patch. -/
theorem patchWithin_confined (rules : Rules) (w : Workspace) (mode : PatchMode)
    (target : Path) :
    (∀ (before after : FileTree) (found : LocatedTarget), before.WellFormed →
      after.WellFormed → w.locate before target = .ok (some found) →
      ∃ loc, before.resolve (w.pathTo target) = .ok loc ∧ found.canonical = pathOf loc ∧
        (w.revalidate after found = .ok () ↔
          after.resolve found.canonical = .ok loc ∧ w.Admits loc) ∧
        (after.resolve found.canonical = .ok loc ↔ after.pathExists found.canonical = true ∧
          ∀ a, a <+: loc → ∀ link, after.node? a ≠ some (.link link))) ∧
    (∀ (t : FileTree) (us : List PatchTurn), t.WellFormed →
      (∀ u, .others u ∈ us → u.WellFormed) →
      (rules.turns w mode target us ⟨.begun, t⟩).Confined w
        (rules.advance w mode target (rules.turns w mode target us ⟨.begun, t⟩))) ∧
    ∀ t : FileTree, rules.turns w mode target [.own, .own, .own, .own] ⟨.begun, t⟩ =
      ⟨.ended (rules.patchWithin w mode target t).answer,
        (rules.patchWithin w mode target t).tree⟩ := by
  refine ⟨fun before after found hbefore hafter hlocate => ?_, fun t us ht hus => ?_,
    rules.turns_own w mode target⟩
  · obtain ⟨loc, hp, -, rfl⟩ := Workspace.locate_eq_some_iff.1 hlocate
    have hloc := (hbefore.isReal_of_resolve hp).named
    exact ⟨loc, hp, rfl, Workspace.revalidate_eq_ok_iff hafter hloc target,
      hafter.resolve_pathOf_iff hloc⟩
  · exact rules.confined_advance w mode target
      (rules.sound_turns w mode target hus ⟨ht, fun _ h => nomatch h⟩)

/-- A file in a workspace, and one outside. -/
private def insideTree : FileTree where
  entries := [([['w']], .directory {}),
    ([['w'], ['f']], .file (Text.encode ".record(x".toList) 420 0),
    ([['o']], .file (Text.encode ".record(x".toList) 420 0)]
  workingDirectory := some []

/-- The file in the workspace has become a link to the one outside. -/
private def swappedTree : FileTree where
  entries := [([['w']], .directory {}),
    ([['w'], ['f']], .link ['/', 'o']),
    ([['o']], .file (Text.encode ".record(x".toList) 420 0)]
  workingDirectory := some []

/-- The file is swapped for a link right before the write: the patch sees that its path leads
out of the workspace, and writes nothing. Left alone, it writes to the file. -/
theorem patchWithin_confined_swapped :
    insideTree.WellFormed ∧ swappedTree.WellFormed ∧
      Workspace.locate ⟨[['w']]⟩ insideTree ['f'] = .ok (some ⟨['f'], "/w/f".toList⟩) ∧
      Workspace.revalidate ⟨[['w']]⟩ swappedTree ⟨['f'], "/w/f".toList⟩ =
        .error (.outside ['/', 'o'] ['/', 'w']) ∧
      (∃ loc, "/w/f".toList = pathOf loc ∧
        ¬(swappedTree.resolve "/w/f".toList = .ok loc ∧ Workspace.Admits ⟨[['w']]⟩ loc)) ∧
      (ofTexts none (some ['k'])).advance ⟨[['w']]⟩ .write ['f']
          ((ofTexts none (some ['k'])).turns ⟨[['w']]⟩ .write ['f']
            [.own, .own, .own, .others swappedTree] ⟨.begun, insideTree⟩) =
        ⟨.ended (.error (.workspace (.outside ['/', 'o'] ['/', 'w']))), swappedTree⟩ ∧
      ((ofTexts none (some ['k'])).turns ⟨[['w']]⟩ .write ['f'] [.own, .own, .own, .own]
        ⟨.begun, insideTree⟩).tree.node? [['w'], ['f']] =
          some (.file (Text.encode ".record(k, x".toList) 420 1) := by
  have hinside : insideTree.WellFormed := .of_entries (by decide +kernel) (by decide +kernel)
  have hswapped : swappedTree.WellFormed := .of_entries (by decide +kernel) (by decide +kernel)
  have hlocate : Workspace.locate ⟨[['w']]⟩ insideTree ['f'] =
      .ok (some ⟨['f'], "/w/f".toList⟩) := rfl
  have hcheck : Workspace.revalidate ⟨[['w']]⟩ swappedTree ⟨['f'], "/w/f".toList⟩ =
      .error (.outside ['/', 'o'] ['/', 'w']) := rfl
  have hplanned : ((ofTexts none (some ['k'])).turns ⟨[['w']]⟩ .write ['f']
      [.own, .own, .own, .others swappedTree] ⟨.begun, insideTree⟩).stage =
        .planned ⟨['f'], "/w/f".toList⟩ ⟨['f'], ".record(x".toList, ".record(k, x".toList, false,
          [⟨0, 8, 1, .method⟩]⟩ := by cbv
  have hothers : ∀ u, .others u ∈ [PatchTurn.own, .own, .own, .others swappedTree] →
      u.WellFormed := by
    intro u hu
    obtain rfl : u = swappedTree := by simpa using hu
    exact hswapped
  obtain ⟨hlook, hrun, -⟩ :=
    patchWithin_confined (ofTexts none (some ['k'])) ⟨[['w']]⟩ .write ['f']
  obtain ⟨loc, -, hcanonical, hpasses, -⟩ :=
    hlook insideTree swappedTree _ hinside hswapped hlocate
  have hconfined := hrun insideTree _ hinside hothers
  refine ⟨hinside, hswapped, hlocate, hcheck, ⟨loc, hcanonical, fun hleads => ?_⟩,
    hconfined.refused _ _ _ hplanned hcheck, by decide +kernel⟩
  have hok := hpasses.2 hleads
  rw [hcheck] at hok
  cases hok

end Rules

end ClientPatch
