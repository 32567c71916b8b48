import ClientPatch.FileTree.Replace
import ClientPatch.Proofs.RealPath

/-!
# Replacing a file at its real path

A replacement works on a new file under a name that no entry has, and that file is gone when it
ends: renamed onto the target, or taken away after a failure. So at the real path of a location
it either puts the new bytes there, with the permission bits of the file that was there, or
leaves the tree as it was, also where the system refuses a step before the new file is in its
place. Afterwards every path leads where it led before.
-/

namespace ClientPatch

namespace FileTree

variable {t : FileTree} {a loc : Location}

theorem put_put_self (t : FileTree) (a : Location) (m n : Node) :
    (t.put a m).put a n = t.put a n := by
  simp [put, erase]

theorem erase_put_self (t : FileTree) (a : Location) (n : Node) :
    (t.put a n).erase a = t.erase a := by
  simp [put, erase]

/-- A location that no entry has need not be erased. -/
theorem erase_of_unused (h : ∀ e ∈ t.entries, e.1 ≠ a) : t.erase a = t := by
  have hfilter : (t.entries.filter fun e => e.1 ≠ a) = t.entries :=
    List.filter_eq_self.2 fun e he => by simpa using h e he
  rw [erase, hfilter]

theorem length_le_nameLength {entries : List (Location × Node)} :
    ∀ e ∈ entries, e.1.flatten.length + targetLength e.2 ≤ nameLength entries := by
  induction entries with
  | nil => simp
  | cons e entries ih =>
    intro e' he'
    rw [nameLength]
    rcases List.mem_cons.1 he' with rfl | he'
    · omega
    · have hle := ih e' he'
      omega

/-- No entry has the fresh name, in whatever directory. -/
theorem freshName_unused (t : FileTree) (p : Path) (dir : Location) :
    ∀ e ∈ t.entries, e.1 ≠ dir ++ [t.freshName p] := by
  intro e he heq
  have hle := length_le_nameLength e he
  rw [heq, List.flatten_append, List.length_append, List.flatten_singleton, freshName,
    List.length_replicate] at hle
  omega

theorem node?_freshName (t : FileTree) (p : Path) (dir : Location) :
    t.node? (dir ++ [t.freshName p]) = none := by
  rw [node?, if_neg (by simp), List.lookup_eq_none_iff]
  intro e he
  simpa using (freshName_unused t p dir e he).symm

/-- What stands at a real location may change, unless it was a directory or becomes a link. -/
theorem IsReal.put (h : t.IsReal loc) (ha : ¬ t.HoldsDirectory a) {node : Node}
    (hnode : ∀ target, node ≠ .link target) : (t.put a node).IsReal loc where
  named := h.named
  above b hb := (h.above b hb).put ha node
  there := by
    by_cases hc : loc = a ∧ loc ≠ []
    · exact ⟨node, by rw [node?_put, if_pos hc], hnode⟩
    · obtain ⟨n, hn, hlink⟩ := h.there
      exact ⟨n, by rw [node?_put, if_neg hc, hn], hlink⟩

section Rewrite

variable {bytes bytes' : Bytes} {mode mode' written written' : Nat}

/-- A walk does not look into files. -/
theorem walkToLink_put_file (h : t.node? loc = some (.file bytes mode written))
    (followLast : Bool) (dir : Location) (moves : List Move) :
    (t.put loc (.file bytes' mode' written')).walkToLink followLast dir moves =
      t.walkToLink followLast dir moves := by
  induction moves generalizing dir with
  | nil => rfl
  | cons move moves ih =>
    cases move with
    | stay => exact ih dir
    | up => exact ih dir.dropLast
    | enter name =>
      rw [walkToLink, walkToLink, node?_put]
      by_cases hc : dir ++ [name] = loc ∧ dir ++ [name] ≠ []
      · rw [if_pos hc, hc.1, h]
      · rw [if_neg hc]
        simp only [ih]

theorem walk_put_file (h : t.node? loc = some (.file bytes mode written)) (followLast : Bool)
    (links : Nat) (dir : Location) (moves : List Move) :
    (t.put loc (.file bytes' mode' written')).walk followLast links dir moves =
      t.walk followLast links dir moves := by
  -- Behind a link the walk begins anew elsewhere, with other moves and one link less.
  induction links generalizing dir moves with
  | zero => rw [walk_eq, walk_eq, walkToLink_put_file h]
  | succ links ih =>
    rw [walk_eq, walk_eq, walkToLink_put_file h]
    simp only [ih]

/-- After a file was rewritten every path leads where it led before. -/
theorem resolve_put_file (h : t.node? loc = some (.file bytes mode written)) (p : Path) :
    (t.put loc (.file bytes' mode' written')).resolve p = t.resolve p := by
  simp only [resolve, resolveBy, base, workingDirectory_put, walk_put_file h]

/-- A rewritten file is still a file. -/
theorem isFile_put_file (h : t.node? loc = some (.file bytes mode written)) (p : Path) :
    (t.put loc (.file bytes' mode' written')).isFile p = t.isFile p := by
  simp only [isFile, nodeAt?, resolve_put_file h]
  cases t.resolve p with
  | error e => rfl
  | ok a =>
    dsimp only
    rw [node?_put]
    by_cases hc : a = loc ∧ a ≠ []
    · rw [if_pos hc, hc.1, h]
    · rw [if_neg hc]

/-- A path to another file leads to the same text. -/
theorem readText_put_file_of_ne (h : t.node? loc = some (.file bytes mode written)) {p : Path}
    (hp : t.resolve p ≠ .ok loc) :
    (t.put loc (.file bytes' mode' written')).readText p = t.readText p := by
  simp only [readText, resolve_put_file h]
  cases hr : t.resolve p with
  | error e => rfl
  | ok a =>
    dsimp only
    rw [node?_put, if_neg]
    rintro ⟨rfl, -⟩
    exact hp hr

/-- A file may be rewritten. -/
theorem WellFormed.put_file (ht : t.WellFormed)
    (h : t.node? loc = some (.file bytes mode written)) :
    (t.put loc (.file bytes' mode' written')).WellFormed := by
  have hno : ¬ t.HoldsDirectory loc := not_holdsDirectory h rfl
  rcases loc.eq_root_or_entry with rfl | ⟨dir, name, rfl⟩
  · exact absurd t.holdsDirectory_root hno
  · exact ht.put _ (ht.held dir name _ h) (ht.named _ _ h name (by simp)) hno

end Rewrite

end FileTree

namespace Replacement

variable {r : Replacement} {refused : Refusals} {t t' : FileTree} {s : ReplaceStep}
  {steps : List ReplaceStep} {e : FileFault}

/-- A step that is made is not refused, and the tree allows it. -/
theorem of_attempt (h : r.attempt refused t s = .ok t') :
    refused s = none ∧ r.step t s = .ok t' := by
  unfold attempt at h
  split at h
  · cases h
  · rename_i hs
    exact ⟨hs, h⟩

theorem attempt_of_refused (h : refused s = some e) : r.attempt refused t s = .error e := by
  rw [attempt, h]

theorem attempt_of_not_refused (h : refused s = none) :
    r.attempt refused t s = r.step t s := by
  rw [attempt, h]

/-- A step that the tree does not allow fails, refused or not. -/
theorem exists_attempt_eq_error (h : r.step t s = .error e) :
    ∃ e', r.attempt refused t s = .error e' := by
  cases hs : refused s with
  | none => exact ⟨e, (attempt_of_not_refused hs).trans h⟩
  | some e' => exact ⟨e', attempt_of_refused hs⟩

theorem run_of_ok (h : r.attempt refused t s = .ok t') :
    r.run refused (s :: steps) t = r.run refused steps t' := by
  rw [run, h]

theorem run_of_error (h : r.attempt refused t s = .error e) :
    r.run refused (s :: steps) t =
      (.error e, if s = .create then t else t.erase r.temporary) := by
  rw [run, h]

/-- A run that ends well was refused none of its steps. -/
theorem granted_of_run (h : (r.run refused steps t).1 = .ok ()) :
    ∀ s ∈ steps, refused s = none := by
  induction steps generalizing t with
  | nil => exact nofun
  | cons s steps ih =>
    cases hs : r.attempt refused t s with
    | error e =>
      rw [run_of_error hs] at h
      cases h
    | ok t' =>
      rw [run_of_ok hs] at h
      exact List.forall_mem_cons.2 ⟨(of_attempt hs).1, ih h⟩

section Drafted

variable {node : Node}

/-- A failure while the new file is under its own name takes it away. -/
theorem run_drafted_of_error (hunused : t.erase r.temporary = t)
    (h : r.attempt refused (t.put r.temporary node) s = .error e) (hs : s ≠ .create) :
    r.run refused (s :: steps) (t.put r.temporary node) = (.error e, t) := by
  rw [run_of_error h, if_neg hs, FileTree.erase_put_self, hunused]

/-- A step that the tree allows is made while the new file is under its own name, or it is refused
and the new file is taken away. -/
theorem run_drafted (hunused : t.erase r.temporary = t)
    (h : r.step (t.put r.temporary node) s = .ok t') (hs : s ≠ .create) :
    r.run refused (s :: steps) (t.put r.temporary node) = r.run refused steps t' ∨
      ∃ e, r.run refused (s :: steps) (t.put r.temporary node) = (.error e, t) := by
  cases hr : refused s with
  | none => exact Or.inl (run_of_ok ((attempt_of_not_refused hr).trans h))
  | some e => exact Or.inr ⟨e, run_drafted_of_error hunused (attempt_of_refused hr) hs⟩

end Drafted

end Replacement

namespace FileTree

variable {t : FileTree} {dir loc : Location} {name : Text}

theorem updateFile_put (t : FileTree) (a : Location) (bytes : Bytes) (mode written : Nat)
    (change : Bytes → Nat → Nat → Node) (ha : a ≠ []) :
    (t.put a (.file bytes mode written)).updateFile a change =
      .ok (t.put a (change bytes mode written)) := by
  rw [updateFile, node?_put, if_pos ⟨rfl, ha⟩]
  simp only [put_put_self]

/-- A replacement at a real path carries a mode over, for a file its own. -/
theorem exists_modeAt?_pathOf {node : Node} (hp : t.resolve (pathOf loc) = .ok loc)
    (hnode : t.node? loc = some node) (hlink : ∀ target, node ≠ .link target) :
    ∃ mode, t.modeAt? (pathOf loc) = some mode ∧
      ∀ old m written, node = .file old m written → mode = m := by
  rw [modeAt?, nodeAt?, hp]
  dsimp only
  rw [hnode]
  cases node with
  | directory info => exact ⟨info.mode, rfl, fun _ _ _ he => nomatch he⟩
  | file old m written =>
    refine ⟨m, rfl, fun _ _ _ he => ?_⟩
    cases he
    rfl
  | link target => exact absurd rfl (hlink target)

/-- At a real path the new file is to be made in the directory of the location. -/
theorem plan_pathOf (h : t.IsReal (dir ++ [name]))
    (hsize : Text.size (pathOf (dir ++ [name])) ≤ maxPath) (bytes : Bytes) :
    Replacement.plan t (pathOf (dir ++ [name])) bytes =
      .ok ⟨pathOf (dir ++ [name]), dir ++ [t.freshName (pathOf (dir ++ [name]))], bytes,
        t.modeAt? (pathOf (dir ++ [name])), t.now⟩ := by
  have habove : ∀ a, a <+: dir → t.HoldsDirectory a := by
    simpa only [List.dropLast_concat] using h.above
  obtain ⟨s, hs⟩ := habove dir List.prefix_rfl
  have hdir : t.IsReal dir :=
    { named := Location.IsNamed.left h.named
      above := fun a ha => habove a (ha.trans (List.dropLast_prefix dir))
      there := ⟨_, hs, fun _ he => nomatch he⟩ }
  have hshort : Text.size (pathOf dir) ≤ maxPath := by
    rw [pathOf_concat, Text.size_append] at hsize
    by_cases hne : dir = []
    · subst hne
      decide
    · rw [pathOf_of_ne_nil hne]
      omega
  have hempty : (pathOf dir).isEmpty = false := by
    simpa using pathOf_ne_nil dir
  rw [Replacement.plan, Replacement.planAs, parent?_pathOf h.named]
  simp only [hempty, Bool.false_eq_true, if_false, hdir.resolve hshort]

/-- A file is created where nothing is. -/
theorem of_createFile {t' : FileTree} {moment : Nat} (h : t.createFile loc moment = .ok t') :
    t.node? loc = none ∧ t' = t.put loc (.file [] ownerOnly moment) := by
  unfold createFile at h
  split at h
  · split at h
    · cases h
    · split at h
      · cases h
      · rename_i hfree
        cases h
        exact ⟨hfree, rfl⟩
  · cases h
  · cases h

/-- The bytes of a replacement and the mode that it carries over are written to the new file, or one
of the steps fails and the tree is as it was. -/
theorem run_replaceSteps_write {r : Replacement} {mode : Nat} (refused : Refusals)
    (hne : r.temporary ≠ []) (hm : r.mode = some mode) (hunused : t.erase r.temporary = t) :
    r.run refused replaceSteps t = r.run refused [.rename, .stamp]
        (t.put r.temporary (.file r.bytes mode r.moment)) ∨
      ∃ e, r.run refused replaceSteps t = (.error e, t) := by
  have hfill : r.step (t.put r.temporary (.file [] ownerOnly r.moment)) .fill =
      .ok (t.put r.temporary (.file r.bytes ownerOnly r.moment)) :=
    updateFile_put _ _ _ _ _ _ hne
  have hsync : r.step (t.put r.temporary (.file r.bytes ownerOnly r.moment)) .sync =
      .ok (t.put r.temporary (.file r.bytes ownerOnly r.moment)) := rfl
  have hmode : r.step (t.put r.temporary (.file r.bytes ownerOnly r.moment)) .setMode =
      .ok (t.put r.temporary (.file r.bytes mode r.moment)) := by
    rw [Replacement.step, hm]
    exact updateFile_put _ _ _ _ _ _ hne
  -- A failure of the creation leaves nothing behind, a later one the new file, for a moment.
  cases hcreate : r.attempt refused t .create with
  | error e => exact Or.inr ⟨e, Replacement.run_of_error hcreate⟩
  | ok t₁ =>
    obtain ⟨-, rfl⟩ := of_createFile (Replacement.of_attempt hcreate).2
    rw [replaceSteps, Replacement.run_of_ok hcreate]
    rcases Replacement.run_drafted hunused hfill nofun with hrun | hrun
    · rw [hrun]
      rcases Replacement.run_drafted hunused hsync nofun with hrun | hrun
      · rw [hrun]
        exact Replacement.run_drafted hunused hmode nofun
      · exact Or.inr hrun
    · exact Or.inr hrun

/-- The new file is renamed onto a file, and a directory keeps its place. -/
theorem step_rename_pathOf {r : Replacement} {fresh : Text} {node new : Node}
    (hpath : r.path = pathOf (dir ++ [name])) (ht : r.temporary = dir ++ [fresh])
    (h : t.IsReal (dir ++ [name])) (hsize : Text.size (pathOf (dir ++ [name])) ≤ maxPath)
    (hnode : t.node? (dir ++ [name]) = some node) (hfresh : t.node? r.temporary = none)
    (hunused : t.erase r.temporary = t) :
    r.step (t.put r.temporary new) .rename =
      if node.isDirectory then .error .isDirectory else .ok (t.put (dir ++ [name]) new) := by
  have hnodir : ¬ t.HoldsDirectory r.temporary := by
    rintro ⟨s, hs⟩
    rw [hfresh] at hs
    cases hs
  have habove : ∀ a, a <+: dir → (t.put r.temporary new).HoldsDirectory a := by
    intro a ha
    refine (h.above a ?_).put hnodir new
    rwa [List.dropLast_concat]
  have hother : dir ++ [name] ≠ r.temporary := by
    intro heq
    rw [heq, hfresh] at hnode
    cases hnode
  rw [Replacement.step, hpath, renameFile, entry_pathOf h.named habove hsize]
  dsimp only
  rw [node?_put, node?_put, if_neg fun hc => hother hc.1, if_pos ⟨rfl, by simp [ht]⟩, hnode,
    erase_put_self, hunused]
  cases node <;> rfl

/-- A replacement of what is at a real location renames the new file onto it, unless that is a
directory, or takes the new file away. -/
theorem run_replaceSteps_pathOf {r : Replacement} {fresh : Text} {mode : Nat} {node : Node}
    {refused : Refusals} (hstamp : refused .stamp = none) (hpath : r.path = pathOf (dir ++ [name]))
    (ht : r.temporary = dir ++ [fresh]) (hm : r.mode = some mode) (h : t.IsReal (dir ++ [name]))
    (hsize : Text.size (pathOf (dir ++ [name])) ≤ maxPath)
    (hnode : t.node? (dir ++ [name]) = some node) (hfresh : t.node? r.temporary = none)
    (hunused : t.erase r.temporary = t) :
    (node.isDirectory = false ∧ r.run refused replaceSteps t =
      (.ok (), t.put (dir ++ [name]) (.file r.bytes mode r.moment))) ∨
    ∃ e, r.run refused replaceSteps t = (.error e, t) := by
  have hrename : r.step (t.put r.temporary (.file r.bytes mode r.moment)) .rename =
      if node.isDirectory then .error .isDirectory
      else .ok (t.put (dir ++ [name]) (.file r.bytes mode r.moment)) :=
    step_rename_pathOf hpath ht h hsize hnode hfresh hunused
  rcases run_replaceSteps_write refused (by simp [ht]) hm hunused with hrun | hrun
  · rw [hrun]
    cases hdir : node.isDirectory with
    | true =>
      -- The new file is there when the rename fails, and is taken away again.
      rw [hdir, if_pos rfl] at hrename
      obtain ⟨e, hfails⟩ := Replacement.exists_attempt_eq_error hrename
      exact Or.inr ⟨e, Replacement.run_drafted_of_error hunused hfails nofun⟩
    | false =>
      rw [hdir, if_neg Bool.false_ne_true] at hrename
      rcases Replacement.run_drafted hunused hrename nofun with hrun | hrun
      · have hreal : (t.put (dir ++ [name]) (.file r.bytes mode r.moment)).IsReal (dir ++ [name]) :=
          h.put (not_holdsDirectory hnode hdir) fun _ he => nomatch he
        have hdated : r.attempt refused
            (t.put (dir ++ [name]) (.file r.bytes mode r.moment)) .stamp =
              .ok (t.put (dir ++ [name]) (.file r.bytes mode r.moment)) := by
          rw [Replacement.attempt_of_not_refused hstamp, Replacement.step, hpath,
            hreal.resolve hsize]
          exact updateFile_put _ _ _ _ _ _ (by simp)
        exact Or.inl ⟨rfl, by rw [hrun, Replacement.run_of_ok hdated, Replacement.run]⟩
      · exact Or.inr hrun
  · exact Or.inr hrun

/-- At the real path of a location a replacement puts the new bytes in, under the mode that was
there, or it changes nothing, whatever the system refuses before the new file is in its place. -/
theorem replaceFile_pathOf (h : t.IsReal loc) (hp : t.resolve (pathOf loc) = .ok loc)
    (bytes : Bytes) (refused : Refusals) (hstamp : refused .stamp = none) :
    (∃ old mode written, t.node? loc = some (.file old mode written) ∧
      t.replaceFile (pathOf loc) bytes refused =
        (.ok (), t.put loc (.file bytes mode t.now))) ∨
    ∃ e, t.replaceFile (pathOf loc) bytes refused = (.error e, t) := by
  rcases loc.eq_root_or_entry with rfl | ⟨dir, name, rfl⟩
  · exact Or.inr ⟨.noParent, rfl⟩
  have hsize := size_le_of_resolve hp
  obtain ⟨node, hnode, hlink⟩ := h.there
  obtain ⟨mode, hmode, hsame⟩ := exists_modeAt?_pathOf hp hnode hlink
  have hfresh := t.node?_freshName (pathOf (dir ++ [name])) dir
  have hunused := erase_of_unused (t.freshName_unused (pathOf (dir ++ [name])) dir)
  rw [replaceFile, plan_pathOf h hsize, hmode]
  rcases run_replaceSteps_pathOf
    (r := ⟨pathOf (dir ++ [name]), dir ++ [t.freshName (pathOf (dir ++ [name]))], bytes,
      some mode, t.now⟩) hstamp rfl rfl rfl h hsize hnode hfresh hunused with
    ⟨hfile, hrun⟩ | ⟨e, hrun⟩
  · cases node with
    | directory info => cases hfile
    | link target => exact absurd rfl (hlink target)
    | file old m written =>
      obtain rfl := hsame old m written rfl
      exact Or.inl ⟨old, mode, written, hnode, hrun⟩
  · exact Or.inr ⟨e, hrun⟩

/-- A replacement that ends well was refused nothing. -/
theorem granted_of_replaceFile {p : Path} {bytes : Bytes} {refused : Refusals}
    (h : (t.replaceFile p bytes refused).1 = .ok ()) (s : ReplaceStep) : refused s = none := by
  unfold replaceFile at h
  split at h
  · cases h
  · exact Replacement.granted_of_run h s (by cases s <;> decide)

/-- No file stands at the root. -/
theorem ne_root_of_file {bytes : Bytes} {mode written : Nat}
    (h : t.node? loc = some (.file bytes mode written)) : loc ≠ [] := by
  rintro rfl
  cases h

/-- A rewritten file holds what was written. -/
theorem node?_put_file {bytes : Bytes} {mode written : Nat}
    (h : t.node? loc = some (.file bytes mode written)) (node : Node) :
    (t.put loc node).node? loc = some node := by
  rw [node?_put, if_pos ⟨rfl, ne_root_of_file h⟩]

/-- A file that is written again is not the one that was there, whatever is written. -/
theorem put_file_ne {bytes bytes' : Bytes} {mode mode' written : Nat}
    (h : t.node? loc = some (.file bytes mode written)) :
    t.put loc (.file bytes' mode' t.now) ≠ t := by
  intro heq
  have hnow := node?_put_file h (.file bytes' mode' t.now)
  rw [heq] at hnow
  exact absurd (written_lt_now hnow) (Nat.lt_irrefl t.now)

/-- One file was rewritten, and nothing else happened to the tree. -/
structure Rewritten (t t' : FileTree) (loc : Location) (before after : Text) : Prop where
  /-- The file held the one text and holds the other, written later, under the same permission
  bits. -/
  file : ∃ mode written written', t.node? loc = some (.file (Text.encode before) mode written) ∧
    t'.node? loc = some (.file (Text.encode after) mode written') ∧ written < written'
  /-- Every other location is as it was. -/
  others : ∀ a, a ≠ loc → t'.node? a = t.node? a
  /-- Every link is as it was. -/
  links : ∀ a target, t'.node? a = some (.link target) ↔ t.node? a = some (.link target)
  /-- Every path leads where it led before. -/
  resolve : ∀ p, t'.resolve p = t.resolve p
  /-- The working directory is the same. -/
  workingDirectory : t'.workingDirectory = t.workingDirectory

theorem rewritten_put {before after : Text} {mode written : Nat}
    (h : t.node? loc = some (.file (Text.encode before) mode written)) :
    t.Rewritten (t.put loc (.file (Text.encode after) mode t.now)) loc before after where
  file := ⟨mode, written, t.now, h, node?_put_file h _, written_lt_now h⟩
  others a ha := by rw [node?_put, if_neg fun hc => ha hc.1]
  links a target := by
    rw [node?_put]
    split
    · rename_i hc
      rw [hc.1, h]
      simp
    · rfl
  resolve := resolve_put_file h
  workingDirectory := rfl

/-- What was written as text is read as that text. -/
theorem readText_of_file {p : Path} {text : Text} {mode written : Nat}
    (hp : t.resolve p = .ok loc)
    (h : t.node? loc = some (.file (Text.encode text) mode written)) :
    t.readText p = .ok text := by
  simp only [readText, hp, h, Text.decode?_encode]

/-- The text that is read at a real path is the text of the file at its location. -/
theorem IsReal.readText_eq_ok (h : t.IsReal loc) {text : Text}
    (hread : t.readText (pathOf loc) = .ok text) :
    t.resolve (pathOf loc) = .ok loc ∧
      ∃ mode written, t.node? loc = some (.file (Text.encode text) mode written) := by
  unfold readText at hread
  split at hread
  · cases hread
  · rename_i real hp
    obtain rfl := h.eq_of_resolve hp
    refine ⟨hp, ?_⟩
    split at hread
    · rename_i bytes mode written hnode
      split at hread
      · rename_i hdecode
        cases hread
        rw [Text.decode?_eq_some_iff.1 hdecode] at hnode
        exact ⟨mode, written, hnode⟩
      · cases hread
    · cases hread
    · cases hread

end FileTree

end ClientPatch
