import ClientPatch.Proofs.RealPath
import ClientPatch.Workspace

/-!
# What a workspace admits

A workspace admits a real location when its root is above it, name by name, and no name below
the root is a forbidden one. A target is found when its path leads to an admitted location, and
the second look passes when the real path that was found still leads to its own location.
-/

namespace ClientPatch.Workspace

open FileTree (pathOf)

variable {w : Workspace} {t : FileTree} {loc : Location}

/-- The location lies below the root, with no forbidden name on the way. -/
structure Admits (w : Workspace) (loc : Location) : Prop where
  /-- The root is above it. -/
  below : w.root <+: loc
  /-- No name behind the root is that of a directory that is not to be patched in. -/
  allowed : ∀ name ∈ loc.drop w.root.length, name ≠ "node_modules".toList ∧ name ≠ ".git".toList

theorem forbiddenName?_eq_none_iff {names : List Text} :
    forbiddenName? names = none ↔
      ∀ name ∈ names, name ≠ "node_modules".toList ∧ name ≠ ".git".toList := by
  simp [forbiddenName?, forbiddenNames, List.find?_eq_none]

theorem permit_eq_ok_iff : w.permit loc = .ok () ↔ w.Admits loc := by
  unfold permit
  split
  · rename_i hroot
    have hroot := List.isPrefixOf_iff_prefix.1 hroot
    split
    · rename_i name hname
      refine iff_of_false (fun h => nomatch h) fun h => ?_
      rw [forbiddenName?_eq_none_iff.2 h.allowed] at hname
      cases hname
    · rename_i hnone
      exact iff_of_true rfl ⟨hroot, forbiddenName?_eq_none_iff.1 hnone⟩
  · rename_i hroot
    refine iff_of_false (fun h => nomatch h) fun h => ?_
    exact hroot (List.isPrefixOf_iff_prefix.2 h.below)

theorem check_eq_ok_iff {p : Path} :
    w.check t p = .ok loc ↔ t.resolve p = .ok loc ∧ w.Admits loc := by
  unfold check
  cases hp : t.resolve p with
  | error e => simp
  | ok real =>
    dsimp only
    cases hpermit : w.permit real with
    | error e =>
      refine iff_of_false (fun h => nomatch h) ?_
      rintro ⟨hloc, hadmits⟩
      cases hloc
      rw [permit_eq_ok_iff.2 hadmits] at hpermit
      cases hpermit
    | ok _ =>
      have hadmits := permit_eq_ok_iff.1 hpermit
      constructor
      · intro h
        cases h
        exact ⟨rfl, hadmits⟩
      · rintro ⟨h, -⟩
        cases h
        rfl

/-- A target is found when its path leads to an admitted location, under the real path of that
location. -/
theorem locate_eq_some_iff {target : Path} {located : LocatedTarget} :
    w.locate t target = .ok (some located) ↔
      ∃ loc, t.resolve (w.pathTo target) = .ok loc ∧ w.Admits loc ∧
        located = ⟨target, pathOf loc⟩ := by
  unfold locate
  dsimp only
  split
  · constructor
    · intro h
      split at h
      · cases h
      · rename_i loc hcheck
        cases h
        obtain ⟨hp, hadmits⟩ := check_eq_ok_iff.1 hcheck
        exact ⟨loc, hp, hadmits, rfl⟩
    · rintro ⟨loc, hp, hadmits, rfl⟩
      rw [check_eq_ok_iff.2 ⟨hp, hadmits⟩]
  · rename_i hexists
    refine iff_of_false (fun h => nomatch h) ?_
    rintro ⟨loc, hp, -⟩
    rw [FileTree.pathExists, hp] at hexists
    exact hexists rfl

/-- The second look passes when the real path still leads to its own location and the workspace
admits it. -/
theorem revalidate_eq_ok_iff (h : t.WellFormed) (hloc : loc.IsNamed) (given : Path) :
    w.revalidate t ⟨given, pathOf loc⟩ = .ok () ↔
      t.resolve (pathOf loc) = .ok loc ∧ w.Admits loc := by
  rw [← check_eq_ok_iff, revalidate]
  dsimp only
  cases hcheck : w.check t (pathOf loc) with
  | error e => exact iff_of_false (fun h => nomatch h) fun h => nomatch h
  | ok real =>
    have hreal := h.isReal_of_resolve (check_eq_ok_iff.1 hcheck).1
    dsimp only
    split
    · rename_i hparts
      exact iff_of_true rfl (congrArg _ (FileTree.pathOf_inj hreal.named hloc hparts))
    · rename_i hparts
      refine iff_of_false (fun h => nomatch h) fun heq => hparts ?_
      cases heq
      rfl

end ClientPatch.Workspace
