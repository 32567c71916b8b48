import ClientPatch.Proofs.WalkChange

/-!
# What is seen of a replacement

A replacement may stop behind any of its steps, and any of them may fail, whatever the cause. At
every such point the entry of the path holds what it held before, or the new file, and so does a
reader of the path find it. Beside it there is at most the new file under a name of its own, which
is gone when the replacement ends, and a failure before the rename has changed nothing.

There is one kind of path whose reader finds neither: on the way to its entry it goes by way of that
entry, a link to a directory. Once a file stands there, such a path leads nowhere.
-/

namespace ClientPatch

namespace Replacement

/-- How far a replacement is. -/
inductive Progress where
  /-- These steps are still to be made. -/
  | before (todo : List ReplaceStep)
  /-- This step failed, and the new file was taken away. -/
  | failed (s : ReplaceStep)
  deriving DecidableEq

/-- The trees that a replacement may leave when it stops, and how far it is by then. A step may fail
for causes that the tree does not show, such as a disk that is full. -/
inductive Reaches (r : Replacement) (t : FileTree) : Progress → FileTree → Prop
  /-- Nothing is done yet. -/
  | start : Reaches r t (.before replaceSteps) t
  /-- One more step is made. -/
  | step {s : ReplaceStep} {todo : List ReplaceStep} {t₁ t₂ : FileTree} :
      Reaches r t (.before (s :: todo)) t₁ → r.step t₁ s = .ok t₂ →
      Reaches r t (.before todo) t₂
  /-- The next step fails. -/
  | fail {s : ReplaceStep} {todo : List ReplaceStep} {t₁ : FileTree} :
      Reaches r t (.before (s :: todo)) t₁ →
      Reaches r t (.failed s) (if s = .create then t₁ else t₁.erase r.temporary)

/-- The file that is to be at the path. -/
def newFile (r : Replacement) : Node := .file r.bytes (r.mode.getD ownerOnly) r.moment

/-- What the new file holds while the steps are still to be made. -/
inductive Draft (r : Replacement) : List ReplaceStep → Node → Prop
  | empty : Draft r [.fill, .sync, .setMode, .rename, .stamp] (.file [] ownerOnly r.moment)
  | filled : Draft r [.sync, .setMode, .rename, .stamp] (.file r.bytes ownerOnly r.moment)
  | synced : Draft r [.setMode, .rename, .stamp] (.file r.bytes ownerOnly r.moment)
  | complete : Draft r [.rename, .stamp] r.newFile

/-- The tree while the steps are still to be made. -/
inductive Stage (r : Replacement) (t : FileTree) : List ReplaceStep → FileTree → Prop
  /-- The tree is as it was. -/
  | begun : Stage r t replaceSteps t
  /-- The new file is there, under the name of its own. -/
  | drafted {todo : List ReplaceStep} {node : Node} :
      t.node? r.temporary = none → r.Draft todo node → Stage r t todo (t.put r.temporary node)
  /-- The new file is where it is to be. -/
  | replaced {todo : List ReplaceStep} {dir : Location} {name : Text} :
      t.node? r.temporary = none → t.entry r.path = .ok (dir, name) →
      ¬t.HoldsDirectory (dir ++ [name]) → todo = [.stamp] ∨ todo = [] →
      Stage r t todo (t.put (dir ++ [name]) r.newFile)

variable {r : Replacement} {t t₁ t₂ : FileTree} {s : ReplaceStep} {todo : List ReplaceStep}
  {home : Location} {fresh : Text}

/-- The new file is given the permission bits that are carried over, if there are any. -/
theorem step_setMode (hne : r.temporary ≠ []) :
    r.step (t.put r.temporary (.file r.bytes ownerOnly r.moment)) .setMode =
      .ok (t.put r.temporary r.newFile) := by
  rw [step, newFile]
  cases r.mode with
  | none => rfl
  | some mode => exact FileTree.updateFile_put _ _ _ _ _ _ hne

/-- The new file is moved onto the entry that the path names. -/
theorem of_step_rename {node : Node} (hr : r.temporary = home ++ [fresh])
    (hu : t.IsUnspelled r.path fresh) (hfree : t.node? r.temporary = none)
    (hs : r.step (t.put r.temporary node) .rename = .ok t₂) :
    ∃ dir name, t.entry r.path = .ok (dir, name) ∧ ¬t.HoldsDirectory (dir ++ [name]) ∧
      t₂ = t.put (dir ++ [name]) node := by
  have hne : r.temporary ≠ [] := by simp [hr]
  have hagree : FileTree.AgreeBut fresh t (t.put r.temporary node) := hr ▸ .put t home fresh node
  rw [step, FileTree.renameFile] at hs
  split at hs
  · cases hs
  · rename_i dir name hentry
    have hentry := hagree.entry hu rfl hentry
    have hother := hr ▸ hu.entry_ne hentry home
    dsimp only at hs
    rw [FileTree.node?_put, if_neg fun hc => hother hc.1] at hs
    split at hs
    · cases hs
    · rename_i hno
      rw [FileTree.node?_put, if_pos ⟨rfl, hne⟩, FileTree.erase_put_self,
        FileTree.erase_of_free hfree hne] at hs
      cases hs
      exact ⟨dir, name, hentry, fun hdir => hdir.elim hno, rfl⟩

/-- The stamp dates the new file, which has its moment from the start. -/
theorem of_step_stamp {dir : Location} {name : Text} (hentry : t.entry r.path = .ok (dir, name))
    (hno : ¬t.HoldsDirectory (dir ++ [name]))
    (hs : r.step (t.put (dir ++ [name]) r.newFile) .stamp = .ok t₂) :
    t₂ = t.put (dir ++ [name]) r.newFile := by
  rw [step] at hs
  split at hs
  · cases hs
  · rename_i loc hp
    obtain ⟨rfl, -⟩ := FileTree.of_resolve_put_entry hentry hno hp
    rw [newFile, FileTree.updateFile_put _ _ _ _ _ _ (by simp)] at hs
    cases hs
    rfl

/-- One step leads from one stage to the next one. -/
theorem Stage.step (hr : r.temporary = home ++ [fresh]) (hu : t.IsUnspelled r.path fresh)
    (h : r.Stage t (s :: todo) t₁) (hs : r.step t₁ s = .ok t₂) : r.Stage t todo t₂ := by
  have hne : r.temporary ≠ [] := by simp [hr]
  generalize hsteps : s :: todo = steps at h
  cases h with
  | begun =>
    cases hsteps
    obtain ⟨hfree, rfl⟩ := FileTree.of_createFile hs
    exact .drafted hfree .empty
  | drafted hfree hdraft =>
    cases hdraft with
    | empty =>
      cases hsteps
      rw [Replacement.step, FileTree.updateFile_put _ _ _ _ _ _ hne] at hs
      cases hs
      exact .drafted hfree .filled
    | filled =>
      cases hsteps
      cases hs
      exact .drafted hfree .synced
    | synced =>
      cases hsteps
      cases (step_setMode hne).symm.trans hs
      exact .drafted hfree .complete
    | complete =>
      cases hsteps
      obtain ⟨dir, name, hentry, hno, rfl⟩ := of_step_rename hr hu hfree hs
      exact .replaced hfree hentry hno (.inl rfl)
  | replaced hfree hentry hno htodo =>
    rcases htodo with rfl | rfl
    · cases hsteps
      obtain rfl := of_step_stamp hentry hno hs
      exact .replaced hfree hentry hno (.inr rfl)
    · cases hsteps

/-- What a replacement leaves: the tree of the stage that it is at, and after a failure the tree as
it was, unless the new file has been moved to the path by then. -/
def Leaves (r : Replacement) (t : FileTree) : Progress → FileTree → Prop
  | .before todo, t' => r.Stage t todo t'
  | .failed s, t' => s ≠ .stamp ∧ t' = t ∨ s = .stamp ∧ r.Stage t [.stamp] t'

/-- Only the stamp is left when the new file is where it is to be. -/
theorem Stage.of_stamp (h : r.Stage t (.stamp :: todo) t₁) :
    ∃ dir name, t.entry r.path = .ok (dir, name) ∧ ¬t.HoldsDirectory (dir ++ [name]) ∧
      t₁ = t.put (dir ++ [name]) r.newFile := by
  generalize hsteps : ReplaceStep.stamp :: todo = steps at h
  cases h with
  | begun => cases hsteps
  | drafted _ hdraft => cases hdraft <;> cases hsteps
  | replaced _ hentry hno _ => exact ⟨_, _, hentry, hno, rfl⟩

/-- A failed step takes the new file away, if it is under its own name still. -/
theorem Stage.fail (hr : r.temporary = home ++ [fresh]) (hu : t.IsUnspelled r.path fresh)
    (h : r.Stage t (s :: todo) t₁) :
    r.Leaves t (.failed s) (if s = .create then t₁ else t₁.erase r.temporary) := by
  have hne : r.temporary ≠ [] := by simp [hr]
  generalize hsteps : s :: todo = steps at h
  cases h with
  | begun =>
    cases hsteps
    exact .inl ⟨nofun, rfl⟩
  | drafted hfree hdraft =>
    have hs : s ≠ .create ∧ s ≠ .stamp := by
      cases hdraft <;> cases hsteps <;> exact ⟨nofun, nofun⟩
    rw [if_neg hs.1, FileTree.erase_put_self, FileTree.erase_of_free hfree hne]
    exact .inl ⟨hs.2, rfl⟩
  | @replaced _ dir name hfree hentry hno htodo =>
    have hstamp : s = .stamp := by
      rcases htodo with rfl | rfl
      · cases hsteps
        rfl
      · cases hsteps
    have hother := hr ▸ hu.entry_ne hentry home
    have hgone : (t.put (dir ++ [name]) r.newFile).node? r.temporary = none := by
      rw [FileTree.node?_put, if_neg fun hc => hother hc.1.symm, hfree]
    rw [hstamp, if_neg nofun, FileTree.erase_of_free hgone hne]
    exact .inr ⟨rfl, .replaced hfree hentry hno (.inl rfl)⟩

/-- At every point of a replacement the tree is that of its stage. -/
theorem Reaches.leaves (hr : r.temporary = home ++ [fresh]) (hu : t.IsUnspelled r.path fresh)
    {progress : Progress} (h : r.Reaches t progress t₁) : r.Leaves t progress t₁ := by
  induction h with
  | start => exact .begun
  | step _ hs ih => exact Stage.step hr hu ih hs
  | fail _ ih => exact Stage.fail hr hu ih

end Replacement

namespace FileTree

open Replacement (Progress)

variable {t t' : FileTree} {p : Path} {bytes : Bytes}

/-- A path leads where it led before, to what was there before. -/
structure SeesSame (t t' : FileTree) (p : Path) : Prop where
  /-- It leads to the same location, or fails for the same cause. -/
  resolve : t'.resolve p = t.resolve p
  /-- What is there is the same. -/
  node : t'.nodeAt? p = t.nodeAt? p

/-- The file with which the contents of a path are replaced. It has the permission bits of what the
path leads to, all links followed, and where the path leads nowhere, it is for its owner only. It is
written later than all that was there. -/
def newFileAt (t : FileTree) (p : Path) (bytes : Bytes) : Node :=
  .file bytes ((t.modeAt? p).getD ownerOnly) t.now

/-- What holds of a tree at every point of a replacement of what the path names. -/
structure AllOrNothing (t : FileTree) (p : Path) (bytes : Bytes) (temporary : Location)
    (progress : Progress) (t' : FileTree) : Prop where
  /-- A reader of the path finds what it found before, or the new file. -/
  reader : ¬t.CrossesItself p → t.SeesSame t' p ∨ t'.nodeAt? p = some (t.newFileAt p bytes)
  /-- A path that crosses the link that it names leads where it led before, or nowhere, because the
  new file is in the place of the link. -/
  crossing : t.CrossesItself p → t.SeesSame t' p ∨ t'.nodeAt? p = none ∧
    ∃ dir name, t.entry p = .ok (dir, name) ∧
      t'.node? (dir ++ [name]) = some (t.newFileAt p bytes)
  /-- The entry that the path names is as it was, or it is the new file. -/
  entry : ∀ dir name, t.entry p = .ok (dir, name) →
    t'.node? (dir ++ [name]) = t.node? (dir ++ [name]) ∨
      t'.node? (dir ++ [name]) = some (t.newFileAt p bytes)
  /-- Every other location is as it was, but for the one of the new file, where nothing was. -/
  others : ∀ a, (∀ dir name, t.entry p = .ok (dir, name) → a ≠ dir ++ [name]) →
    t'.node? a = t.node? a ∨ a = temporary ∧ t.node? a = none
  /-- When it is finished the new file is in its place and is found there, and nothing else has
  changed. -/
  finished : progress = .before [] →
    (¬t.CrossesItself p → t'.nodeAt? p = some (t.newFileAt p bytes)) ∧
    ∃ dir name, t.entry p = .ok (dir, name) ∧
      t'.node? (dir ++ [name]) = some (t.newFileAt p bytes) ∧
      ∀ a, a ≠ dir ++ [name] → t'.node? a = t.node? a
  /-- When it fails at a step up to the rename, nothing has changed. -/
  failed : ∀ s, progress = .failed s → s ≠ .stamp → t' = t

/-- A file of an unspelled name is not seen by a reader of the path. -/
theorem seesSame_put {home : Location} {fresh : Text} (h : t.WellFormed)
    (hu : t.IsUnspelled p fresh) (hfree : t.node? (home ++ [fresh]) = none) (node : Node) :
    t.SeesSame (t.put (home ++ [fresh]) node) p := by
  have hresolve := (AgreeBut.put t home fresh node).resolve hu rfl
  refine ⟨hresolve, ?_⟩
  rw [nodeAt?, nodeAt?, hresolve]
  cases hp : t.resolve p with
  | error e => rfl
  | ok loc =>
    obtain ⟨there, hthere, -⟩ := (h.isReal_of_resolve hp).there
    dsimp only
    rw [node?_put, if_neg]
    rintro ⟨rfl, -⟩
    rw [hfree] at hthere
    cases hthere

theorem allOrNothing_same (t : FileTree) (p : Path) (bytes : Bytes) (temporary : Location)
    {progress : Progress} (hprogress : progress ≠ .before []) :
    t.AllOrNothing p bytes temporary progress t where
  reader _ := .inl ⟨rfl, rfl⟩
  crossing _ := .inl ⟨rfl, rfl⟩
  entry _ _ _ := .inl rfl
  others _ _ := .inl rfl
  finished hdone := absurd hdone hprogress
  failed _ _ _ := rfl

theorem allOrNothing_drafted {home : Location} {fresh : Text} {progress : Progress}
    (h : t.WellFormed) (hu : t.IsUnspelled p fresh) (hfree : t.node? (home ++ [fresh]) = none)
    (node : Node) (hprogress : ∃ s todo, progress = .before (s :: todo)) :
    t.AllOrNothing p bytes (home ++ [fresh]) progress (t.put (home ++ [fresh]) node) where
  reader _ := .inl (seesSame_put h hu hfree node)
  crossing _ := .inl (seesSame_put h hu hfree node)
  entry dir name hentry := by
    rw [node?_put, if_neg fun hc => hu.entry_ne hentry home hc.1]
    exact .inl rfl
  others a _ := by
    rw [node?_put]
    split
    · rename_i hc
      exact .inr ⟨hc.1, hc.1 ▸ hfree⟩
    · exact .inl rfl
  finished hdone := by
    obtain ⟨s, todo, rfl⟩ := hprogress
    cases hdone
  failed s hs := by
    obtain ⟨s, todo, rfl⟩ := hprogress
    cases hs

theorem allOrNothing_replaced {temporary dir : Location} {name : Text} {progress : Progress}
    (hentry : t.entry p = .ok (dir, name)) (hno : ¬t.HoldsDirectory (dir ++ [name]))
    (hprogress : ∀ s, progress = .failed s → s = .stamp) :
    t.AllOrNothing p bytes temporary progress
      (t.put (dir ++ [name]) (t.newFileAt p bytes)) := by
  have hnew : (t.put (dir ++ [name]) (t.newFileAt p bytes)).node? (dir ++ [name]) =
      some (t.newFileAt p bytes) := by
    rw [node?_put, if_pos ⟨rfl, by simp⟩]
  have hothers : ∀ a, a ≠ dir ++ [name] →
      (t.put (dir ++ [name]) (t.newFileAt p bytes)).node? a = t.node? a := by
    intro a ha
    rw [node?_put, if_neg fun hc => ha hc.1]
  have hfound : ¬t.CrossesItself p →
      (t.put (dir ++ [name]) (t.newFileAt p bytes)).nodeAt? p = some (t.newFileAt p bytes) := by
    intro hcross
    rw [nodeAt?, newFileAt, resolve_put_entry hentry hno hcross]
    exact hnew
  refine ⟨fun hcross => .inr (hfound hcross), fun hcross => .inr ⟨?_, dir, name, hentry, hnew⟩,
    ?_, ?_, ?_, ?_⟩
  · rw [nodeAt?]
    split
    · rename_i loc hp
      exact absurd hcross (of_resolve_put_entry hentry hno hp).2
    · rfl
  · intro dir' name' hentry'
    cases hentry.symm.trans hentry'
    exact .inr hnew
  · exact fun a ha => .inl (hothers a (ha dir name hentry))
  · exact fun _ => ⟨hfound, dir, name, hentry, hnew, hothers⟩
  · exact fun s hs hne => absurd (hprogress s hs) hne

end FileTree

namespace Replacement

open FileTree (AllOrNothing)

variable {r : Replacement} {t t' : FileTree} {p : Path} {bytes : Bytes} {fresh : Text}

/-- What is planned for a path. -/
theorem of_planAs (h : planAs fresh t p bytes = .ok r) :
    r.path = p ∧ (∃ home, r.temporary = home ++ [fresh]) ∧ r.newFile = t.newFileAt p bytes := by
  unfold planAs at h
  split at h
  · cases h
  · dsimp only at h
    split at h
    · cases h
    · cases h
      exact ⟨rfl, ⟨_, rfl⟩, rfl⟩

/-- At every point of a replacement it is all or nothing. -/
theorem Reaches.allOrNothing {progress : Progress} (h : t.WellFormed)
    (hr : planAs fresh t p bytes = .ok r) (hu : t.IsUnspelled p fresh)
    (hreach : r.Reaches t progress t') : t.AllOrNothing p bytes r.temporary progress t' := by
  obtain ⟨rfl, ⟨home, htemporary⟩, hnew⟩ := of_planAs hr
  have hleaves := hreach.leaves htemporary hu
  cases progress with
  | before todo =>
    cases hleaves with
    | begun => exact FileTree.allOrNothing_same t _ _ _ (by decide)
    | drafted hfree hdraft =>
      rw [htemporary] at hfree ⊢
      refine FileTree.allOrNothing_drafted h hu hfree _ ?_
      cases hdraft <;> exact ⟨_, _, rfl⟩
    | replaced _ hentry hno _ =>
      rw [hnew]
      exact FileTree.allOrNothing_replaced hentry hno nofun
  | failed s =>
    rcases hleaves with ⟨-, rfl⟩ | ⟨rfl, hstage⟩
    · exact FileTree.allOrNothing_same _ _ _ _ nofun
    · obtain ⟨dir, name, hentry, hno, rfl⟩ := hstage.of_stamp
      rw [hnew]
      exact FileTree.allOrNothing_replaced hentry hno fun s hs => (Progress.failed.inj hs).symm

/-- The file is there to be dated, unless the path crosses itself. -/
theorem Reaches.crossesItself {todo : List ReplaceStep} {e : FileFault}
    (hr : planAs fresh t p bytes = .ok r) (hu : t.IsUnspelled p fresh)
    (hreach : r.Reaches t (.before (.stamp :: todo)) t') (hs : r.step t' .stamp = .error e) :
    t.CrossesItself p := by
  obtain ⟨rfl, ⟨home, htemporary⟩, -⟩ := of_planAs hr
  obtain ⟨dir, name, hentry, hno, rfl⟩ := Stage.of_stamp (hreach.leaves htemporary hu)
  refine Classical.byContradiction fun hcross => ?_
  rw [Replacement.step, newFile, FileTree.resolve_put_entry hentry hno hcross] at hs
  dsimp only at hs
  rw [FileTree.updateFile_put _ _ _ _ _ _ (by simp)] at hs
  cases hs

/-- A run makes the steps up to its end or to the first one that fails. -/
theorem Reaches.run {steps : List ReplaceStep} {t₁ : FileTree}
    (h : r.Reaches t (.before steps) t₁) (refused : Refusals) :
    match r.run refused steps t₁ with
    | (.ok (), t') => r.Reaches t (.before []) t'
    | (.error e, t') => ∃ s todo t₂, r.Reaches t (.before (s :: todo)) t₂ ∧
        r.attempt refused t₂ s = .error e ∧
        t' = if s = .create then t₂ else t₂.erase r.temporary := by
  induction steps generalizing t₁ with
  | nil => exact h
  | cons s steps ih =>
    cases hs : r.attempt refused t₁ s with
    | ok t₂ =>
      rw [run_of_ok hs]
      exact ih (h.step (of_attempt hs).2)
    | error e =>
      rw [run_of_error hs]
      exact ⟨s, steps, t₁, h, hs, rfl⟩

end Replacement

/-- At every point of a replacement, under whatever unspelled name the new file is made, it is all
or nothing. A replacement that ends well is finished, and one that fails has changed nothing, unless
it fails at the stamp: the system refuses that, or the path crosses itself and so leads nowhere once
the new file is in its place. -/
theorem FileTree.replaceFile_allOrNothing {t : FileTree} (h : t.WellFormed) (p : Path)
    (bytes : Bytes) :
    (∀ fresh r progress t', t.IsUnspelled p fresh →
      Replacement.planAs fresh t p bytes = .ok r → r.Reaches t progress t' →
      t.AllOrNothing p bytes r.temporary progress t') ∧
    (∀ refused t', t.replaceFile p bytes refused = (.ok (), t') →
      ∃ temporary, t.AllOrNothing p bytes temporary (.before []) t') ∧
    ∀ refused e t', t.replaceFile p bytes refused = (.error e, t') → t' = t ∨
      (t.CrossesItself p ∨ refused .stamp ≠ none) ∧
        ∃ temporary, t.AllOrNothing p bytes temporary (.failed .stamp) t' := by
  have hpoints : ∀ fresh r progress t', t.IsUnspelled p fresh →
      Replacement.planAs fresh t p bytes = .ok r → r.Reaches t progress t' →
      t.AllOrNothing p bytes r.temporary progress t' :=
    fun fresh r progress t' hu hr hreach => hreach.allOrNothing h hr hu
  have hown := t.isUnspelled_freshName p
  unfold replaceFile
  cases hplan : Replacement.plan t p bytes with
  | error e => exact ⟨hpoints, nofun, fun _ _ _ hrun => .inl (Prod.mk.inj hrun).2.symm⟩
  | ok r =>
    have hrun := (Replacement.Reaches.start (r := r) (t := t)).run
    dsimp only
    refine ⟨hpoints, fun refused t' hanswer => ?_, fun refused e t' hanswer => ?_⟩
    · have hrun := hrun refused
      rw [hanswer] at hrun
      exact ⟨r.temporary, hpoints _ r _ t' hown hplan hrun⟩
    · have hrun := hrun refused
      rw [hanswer] at hrun
      obtain ⟨s, todo, t₂, hreach, hs, rfl⟩ := hrun
      have hfailed := hpoints _ r _ _ hown hplan hreach.fail
      by_cases hstamp : s = .stamp
      · subst hstamp
        refine .inr ⟨?_, r.temporary, hfailed⟩
        cases hrefused : refused .stamp with
        | some e' => exact .inr nofun
        | none =>
          rw [Replacement.attempt_of_not_refused hrefused] at hs
          exact .inl (hreach.crossesItself hplan hown hs)
      · exact .inl (hfailed.failed s rfl hstamp)

/-- A link to a file, and a link to a directory that is closed to others. -/
private def linkedPairTree : FileTree where
  entries := [([['d']], .directory { mode := 0o750 }), ([['d'], ['k']], .link "../f".toList),
    ([['f']], .file (Text.encode ['a']) 0o640 0), ([['l']], .link ['d'])]
  workingDirectory := some []

private theorem wellFormed_linkedPairTree : linkedPairTree.WellFormed :=
  .of_entries (by decide +kernel) (by decide +kernel)

/-- The replacement of what a path names there by a letter. -/
private def pairReplacement (p : Path) (directory : Location) (mode : Nat) : Replacement :=
  ⟨p, directory ++ [linkedPairTree.freshName p], Text.encode ['b'], some mode, 1⟩

/-- A replacement of the link to the file at a point before the rename, one that is finished, and
one whose rename is refused: the link has become a file with the permission bits of the other one,
which is as it was, or nothing has changed. The link to the directory becomes a file with the
permission bits of that one. -/
theorem FileTree.replaceFile_allOrNothing_link :
    linkedPairTree.WellFormed ∧ ¬linkedPairTree.CrossesItself "d/k".toList ∧
      Replacement.plan linkedPairTree "d/k".toList (Text.encode ['b']) =
        .ok (pairReplacement "d/k".toList [['d']] 0o640) ∧
      (∃ t', (pairReplacement "d/k".toList [['d']] 0o640).Reaches linkedPairTree
          (.before [.fill, .sync, .setMode, .rename, .stamp]) t' ∧
        linkedPairTree.AllOrNothing "d/k".toList (Text.encode ['b'])
          [['d'], linkedPairTree.freshName "d/k".toList]
          (.before [.fill, .sync, .setMode, .rename, .stamp]) t') ∧
      (∃ t', linkedPairTree.replaceFile "d/k".toList (Text.encode ['b']) = (.ok (), t') ∧
        t'.nodeAt? "d/k".toList = some (.file (Text.encode ['b']) 0o640 1) ∧
        t'.node? [['f']] = linkedPairTree.node? [['f']]) ∧
      linkedPairTree.replaceFile "d/k".toList (Text.encode ['b']) (refusing .rename .denied) =
        (.error .denied, linkedPairTree) ∧
      ∃ t', linkedPairTree.replaceFile ['l'] (Text.encode ['b']) = (.ok (), t') ∧
        t'.node? [['l']] = some (.file (Text.encode ['b']) 0o750 1) := by
  have hwell := wellFormed_linkedPairTree
  have hplan : Replacement.plan linkedPairTree "d/k".toList (Text.encode ['b']) =
      .ok (pairReplacement "d/k".toList [['d']] 0o640) := by rfl
  have hcross : ¬linkedPairTree.CrossesItself "d/k".toList := by
    rintro ⟨dir, name, target, hentry, -, hnone⟩
    cases (show linkedPairTree.entry "d/k".toList = .ok ([['d']], ['k']) from rfl).symm.trans hentry
    exact hnone [['d']] ['k'] rfl
  obtain ⟨hpoints, hdone, hfailed⟩ :=
    replaceFile_allOrNothing hwell "d/k".toList (Text.encode ['b'])
  refine ⟨hwell, hcross, hplan, ⟨_, .step .start rfl, ?_⟩, ⟨_, rfl, ?_, ?_⟩, ?_, _, rfl, ?_⟩
  · exact hpoints _ _ _ _ (isUnspelled_freshName _ _) hplan (.step .start rfl)
  · obtain ⟨_, hall⟩ := hdone noRefusals _ rfl
    exact (hall.finished rfl).1 hcross
  · obtain ⟨_, hall⟩ := hdone noRefusals _ rfl
    obtain ⟨-, dir, name, hentry, -, hothers⟩ := hall.finished rfl
    cases (show linkedPairTree.entry "d/k".toList = .ok ([['d']], ['k']) from rfl).symm.trans hentry
    exact hothers _ (by decide)
  · have herror : (linkedPairTree.replaceFile "d/k".toList (Text.encode ['b'])
        (refusing .rename .denied)).1 = .error .denied := rfl
    rcases hfailed _ _ _ (Prod.ext herror rfl) with hsame | ⟨hstamp, -⟩
    · exact Prod.ext herror hsame
    · exact absurd rfl (hstamp.resolve_left hcross)
  · obtain ⟨-, hdone, -⟩ := replaceFile_allOrNothing hwell ['l'] (Text.encode ['b'])
    obtain ⟨_, hall⟩ := hdone noRefusals _ rfl
    obtain ⟨-, dir, name, hentry, hnew, -⟩ := hall.finished rfl
    cases (show linkedPairTree.entry ['l'] = .ok ([], ['l']) from rfl).symm.trans hentry
    exact hnew

/-- A path that crosses the link that it names has a reader that finds neither what was there before
nor the new file. -/
theorem FileTree.replaceFile_crossing :
    linkedPairTree.WellFormed ∧
      linkedPairTree.IsUnspelled "l/../l".toList (linkedPairTree.freshName "l/../l".toList) ∧
      Replacement.plan linkedPairTree "l/../l".toList (Text.encode ['b']) =
        .ok (pairReplacement "l/../l".toList [] 0o750) ∧
      ¬∀ progress t', (pairReplacement "l/../l".toList [] 0o750).Reaches linkedPairTree
          progress t' → linkedPairTree.SeesSame t' "l/../l".toList ∨
            t'.nodeAt? "l/../l".toList =
              some (linkedPairTree.newFileAt "l/../l".toList (Text.encode ['b'])) := by
  refine ⟨wellFormed_linkedPairTree, isUnspelled_freshName _ _, rfl, fun hclaim => ?_⟩
  have hrenamed := hclaim _ _ (.step (.step (.step (.step (.step .start rfl) rfl) rfl) rfl) rfl)
  rcases hrenamed with hsame | hnew
  · exact absurd hsame.node (by decide +kernel)
  · exact absurd hnew (by decide +kernel)

end ClientPatch
