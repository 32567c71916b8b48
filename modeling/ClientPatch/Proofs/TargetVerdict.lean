import ClientPatch.Proofs.WorkspaceCheck

/-!
# What decides about a target

A target is judged by the location that it leads to, and by nothing else: it is missing when it
leads nowhere, wherever it points; refused when the root of the workspace is not above that
location, part by part, or when a forbidden name stands below the root; and found in every other
case. So however a file is spelled, the answer is the same.
-/

namespace ClientPatch

open FileTree (pathOf)

/-- The parts of the one path begin with the parts of the other one. -/
def Path.LiesBelow (p root : Path) : Prop := Path.parts root <+: Path.parts p

/-- Files in a directory of the name are not to be patched. -/
def IsForbiddenName (name : Text) : Prop := name = "node_modules".toList ∨ name = ".git".toList

/-- Behind the parts of the root, `name` is the first part of the path that is forbidden. -/
def Path.FirstForbidden (p root : Path) (name : Text) : Prop :=
  IsForbiddenName name ∧ ∃ front rest,
    Path.parts p = Path.parts root ++ (front ++ .name name :: rest) ∧
      ∀ n, .name n ∈ front → ¬IsForbiddenName n

namespace Workspace

/-- The answer about a target that has the real path `p`. -/
structure Judges (w : Workspace) (target p : Path)
    (answer : Except WorkspaceError (Option LocatedTarget)) : Prop where
  /-- It is outside when the root is not above it. -/
  outside : ∀ path root, answer = .error (.outside path root) ↔
    ¬p.LiesBelow w.rootPath ∧ path = p ∧ root = w.rootPath
  /-- It is forbidden when it lies below the root, by the first forbidden name there. -/
  forbidden : ∀ path name, answer = .error (.forbidden path name) ↔
    p.FirstForbidden w.rootPath name ∧ path = p
  /-- It is found when it lies below the root and no name there is forbidden. -/
  found : ∀ located, answer = .ok (some located) ↔
    p.LiesBelow w.rootPath ∧ (∀ name, ¬p.FirstForbidden w.rootPath name) ∧
      located = ⟨target, p⟩
  /-- It is not missing. -/
  present : answer ≠ .ok none
  /-- It does lead somewhere. -/
  resolved : ∀ path cause, answer ≠ .error (.unresolved path cause)

/-- The answer about a target without the name that it was asked by: the real path of a target that
is found. -/
def verdict (w : Workspace) (t : FileTree) (target : Path) :
    Except WorkspaceError (Option Path) :=
  match w.locate t target with
  | .error e => .error e
  | .ok located => .ok (located.map (·.canonical))

variable {w : Workspace} {t : FileTree} {loc : Location} {target : Path}

/-- A target is missing when it leads nowhere. -/
theorem locate_eq_none_iff :
    w.locate t target = .ok none ↔ ∀ loc, t.resolve (w.pathTo target) ≠ .ok loc := by
  rw [← not_exists, ← FileTree.pathExists_iff]
  unfold locate
  dsimp only
  split
  · rename_i hexists
    refine iff_of_false ?_ fun h => h hexists
    split <;> nofun
  · rename_i hmissing
    exact iff_of_true rfl hmissing

/-- A target that leads to a location is refused as the location is. -/
theorem locate_eq_error_iff (hp : t.resolve (w.pathTo target) = .ok loc) {e : WorkspaceError} :
    w.locate t target = .error e ↔ w.permit loc = .error e := by
  unfold locate check
  dsimp only
  rw [if_pos (FileTree.pathExists_iff.2 ⟨loc, hp⟩), hp]
  dsimp only
  cases w.permit loc with
  | error cause => simp only [Except.error.injEq]
  | ok _ => exact iff_of_false nofun nofun

theorem elem_forbiddenNames_iff {name : Text} :
    forbiddenNames.elem name = true ↔ IsForbiddenName name := by
  simp [forbiddenNames, IsForbiddenName]

theorem permit_eq_outside_iff {path root : Path} :
    w.permit loc = .error (.outside path root) ↔
      ¬w.root <+: loc ∧ path = pathOf loc ∧ root = w.rootPath := by
  unfold permit
  split
  · rename_i hroot
    refine iff_of_false ?_ fun h => h.1 (List.isPrefixOf_iff_prefix.1 hroot)
    split <;> nofun
  · rename_i hroot
    have hroot : ¬w.root <+: loc := fun h => hroot (List.isPrefixOf_iff_prefix.2 h)
    constructor
    · intro h
      cases h
      exact ⟨hroot, rfl, rfl⟩
    · rintro ⟨-, rfl, rfl⟩
      rfl

/-- Behind the names of the root, `name` is the first one that is forbidden. -/
def FirstForbidden (w : Workspace) (loc : Location) (name : Text) : Prop :=
  IsForbiddenName name ∧ ∃ front rest, loc = w.root ++ (front ++ name :: rest) ∧
    ∀ n ∈ front, ¬IsForbiddenName n

theorem forbiddenName?_eq_some_iff {below : List Text} {name : Text} :
    forbiddenName? below = some name ↔ w.FirstForbidden (w.root ++ below) name := by
  simp only [forbiddenName?, List.find?_eq_some_iff_append, FirstForbidden,
    List.append_cancel_left_eq, elem_forbiddenNames_iff, Bool.not_eq_true', Bool.eq_false_iff,
    ne_eq]

theorem permit_eq_forbidden_iff {path : Path} {name : Text} :
    w.permit loc = .error (.forbidden path name) ↔
      w.FirstForbidden loc name ∧ path = pathOf loc := by
  unfold permit
  split
  · rename_i hroot
    obtain ⟨below, rfl⟩ := List.isPrefixOf_iff_prefix.1 hroot
    rw [List.drop_left, ← forbiddenName?_eq_some_iff]
    split
    · rename_i first hfirst
      rw [hfirst]
      constructor
      · intro h
        cases h
        exact ⟨rfl, rfl⟩
      · rintro ⟨h, rfl⟩
        cases h
        rfl
    · rename_i hnone
      rw [hnone]
      exact iff_of_false nofun nofun
  · rename_i hroot
    refine iff_of_false nofun ?_
    rintro ⟨⟨-, front, rest, rfl, -⟩, -⟩
    exact hroot (List.isPrefixOf_iff_prefix.2 (List.prefix_append _ _))

/-- What is admitted lies below the root and has no first forbidden name there. -/
theorem admits_iff : w.Admits loc ↔ w.root <+: loc ∧ ∀ name, ¬w.FirstForbidden loc name := by
  constructor
  · rintro ⟨hbelow, hallowed⟩
    refine ⟨hbelow, ?_⟩
    rintro name ⟨hname, front, rest, rfl, -⟩
    rw [List.drop_left] at hallowed
    obtain ⟨hmodules, hgit⟩ := hallowed name (by simp)
    exact hname.elim hmodules hgit
  · rintro ⟨hbelow, hnone⟩
    refine ⟨hbelow, forbiddenName?_eq_none_iff.1 ?_⟩
    obtain ⟨below, rfl⟩ := hbelow
    rw [List.drop_left, Option.eq_none_iff_forall_ne_some]
    exact fun name hname => hnone name (forbiddenName?_eq_some_iff.1 hname)

end Workspace

section Parts

variable {root loc : Location}

private theorem injective_name : Function.Injective PathPart.name :=
  fun _ _ h => PathPart.name.inj h

/-- Below a real path lie the real paths of the locations below. -/
theorem liesBelow_pathOf_iff (hroot : root.IsNamed) (hloc : loc.IsNamed) :
    Path.LiesBelow (pathOf loc) (pathOf root) ↔ root <+: loc := by
  rw [Path.LiesBelow, FileTree.parts_pathOf hroot, FileTree.parts_pathOf hloc,
    List.prefix_cons_inj, List.prefix_map_iff_of_injective injective_name]

/-- The first forbidden part of a real path is the first forbidden name of its location. -/
theorem firstForbidden_pathOf_iff {w : Workspace} (hroot : w.root.IsNamed) (hloc : loc.IsNamed)
    {name : Text} : Path.FirstForbidden (pathOf loc) w.rootPath name ↔
      w.FirstForbidden loc name := by
  rw [Path.FirstForbidden, Workspace.FirstForbidden, Workspace.rootPath,
    FileTree.parts_pathOf hroot, FileTree.parts_pathOf hloc]
  refine and_congr_right fun _ => ?_
  constructor
  · rintro ⟨front, rest, hparts, hfront⟩
    rw [List.cons_append] at hparts
    obtain ⟨above, below, rfl, habove, hbelow⟩ := List.map_eq_append_iff.1 (List.cons.inj hparts).2
    obtain rfl := (List.map_inj_right fun _ _ h => injective_name h).1 habove
    obtain ⟨names, behind, rfl, rfl, hbehind⟩ := List.map_eq_append_iff.1 hbelow
    obtain ⟨n, later, rfl, hn, -⟩ := List.map_eq_cons_iff.1 hbehind
    obtain rfl := injective_name hn
    exact ⟨names, later, rfl, fun m hm => hfront m (List.mem_map_of_mem hm)⟩
  · rintro ⟨front, rest, rfl, hfront⟩
    refine ⟨front.map .name, rest.map .name, by simp, fun n hn => ?_⟩
    obtain ⟨m, hm, he⟩ := List.mem_map.1 hn
    rw [← injective_name he]
    exact hfront m hm

end Parts

namespace Workspace

variable {w : Workspace} {t : FileTree} {loc : Location} {target : Path}

/-- The answer about a target that leads to a location is that about its real path. -/
theorem judges_of_resolve (hroot : w.root.IsNamed) (hloc : loc.IsNamed)
    (hp : t.resolve (w.pathTo target) = .ok loc) :
    w.Judges target (pathOf loc) (w.locate t target) where
  outside path root := by
    rw [locate_eq_error_iff hp, permit_eq_outside_iff, rootPath, liesBelow_pathOf_iff hroot hloc]
  forbidden path name := by
    rw [locate_eq_error_iff hp, permit_eq_forbidden_iff, firstForbidden_pathOf_iff hroot hloc]
  found located := by
    simp only [locate_eq_some_iff, hp, Except.ok.injEq, exists_eq_left', admits_iff, and_assoc,
      firstForbidden_pathOf_iff hroot hloc]
    rw [rootPath, liesBelow_pathOf_iff hroot hloc]
  present := fun hmissing => locate_eq_none_iff.1 hmissing loc hp
  resolved path cause := by
    rw [Ne, locate_eq_error_iff hp]
    unfold permit
    split
    · split <;> nofun
    · nofun

/-- The verdict on a target that leads to a location is that on the location. -/
theorem verdict_of_resolve (hp : t.resolve (w.pathTo target) = .ok loc) :
    w.verdict t target =
      match w.permit loc with
      | .error e => .error e
      | .ok () => .ok (some (pathOf loc)) := by
  unfold verdict locate check
  dsimp only
  rw [if_pos (FileTree.pathExists_iff.2 ⟨loc, hp⟩), hp]
  dsimp only
  cases w.permit loc <;> rfl

theorem verdict_of_not_resolve (hmissing : ∀ loc, t.resolve (w.pathTo target) ≠ .ok loc) :
    w.verdict t target = .ok none := by
  rw [verdict, locate_eq_none_iff.2 hmissing]
  rfl

theorem pathTo_of_isAbsolute (w : Workspace) {p : Path} (h : Path.isAbsolute p = true) :
    w.pathTo p = p := by
  rw [pathTo, Path.join, if_pos h]

/-- What a target stands for is an absolute path. -/
theorem isAbsolute_pathTo (w : Workspace) (target : Path) :
    Path.isAbsolute (w.pathTo target) = true := by
  have hroot := FileTree.isAbsolute_pathOf w.root
  obtain ⟨c, cs, hcs⟩ := List.exists_cons_of_ne_nil (FileTree.pathOf_ne_nil w.root)
  rw [hcs] at hroot
  rw [pathTo, rootPath, Path.join, hcs]
  split
  · assumption
  · split <;> exact hroot

/-- Where a target leads decides, however the target is spelled: two spellings of one location, a
target and the absolute path that it stands for, and a target and its real path have the same
verdict. -/
structure IgnoresSpelling (w : Workspace) (t : FileTree) : Prop where
  /-- Two targets that lead to the same location have the same verdict. -/
  same : ∀ target target' loc, t.resolve (w.pathTo target) = .ok loc →
    t.resolve (w.pathTo target') = .ok loc → w.verdict t target = w.verdict t target'
  /-- So have a target and the absolute path that it stands for. -/
  absolute : ∀ target, w.verdict t (w.pathTo target) = w.verdict t target
  /-- So have a target and its real path, unless that is too long to be walked. -/
  real : ∀ target loc, t.resolve (w.pathTo target) = .ok loc →
    Text.size (pathOf loc) ≤ FileTree.maxPath → w.verdict t (pathOf loc) = w.verdict t target

theorem ignoresSpelling (h : t.WellFormed) (w : Workspace) : w.IgnoresSpelling t := by
  have hsame : ∀ target target' loc, t.resolve (w.pathTo target) = .ok loc →
      t.resolve (w.pathTo target') = .ok loc → w.verdict t target = w.verdict t target' := by
    intro target target' loc hp hp'
    rw [verdict_of_resolve hp, verdict_of_resolve hp']
  refine ⟨hsame, fun target => ?_, fun target loc hp hsize => ?_⟩
  · have htwice := w.pathTo_of_isAbsolute (w.isAbsolute_pathTo target)
    by_cases hleads : ∃ loc, t.resolve (w.pathTo target) = .ok loc
    · obtain ⟨loc, hp⟩ := hleads
      exact hsame _ _ loc (htwice.symm ▸ hp) hp
    · have hmissing := not_exists.1 hleads
      rw [verdict_of_not_resolve hmissing, verdict_of_not_resolve (htwice.symm ▸ hmissing)]
  · refine hsame _ _ loc ?_ hp
    rw [w.pathTo_of_isAbsolute (FileTree.isAbsolute_pathOf loc)]
    exact (h.isReal_of_resolve hp).resolve hsize

/-- A target is missing when it leads nowhere. Otherwise the real path of what it leads to decides:
it is outside when the root is not above that path, part by part, forbidden by the first forbidden
name below the root, and found at that path in every other case. So the answers about two spellings
of one file are the same. -/
theorem locate_exact {t : FileTree} (h : t.WellFormed) {spelling : Path} {w : Workspace}
    (hw : ofPath t spelling = .ok w) :
    (∀ target, w.locate t target = .ok none ↔
      ∀ loc, t.resolve (w.pathTo target) ≠ .ok loc) ∧
    (∀ target loc, t.resolve (w.pathTo target) = .ok loc →
      t.IsReal loc ∧ w.Judges target (pathOf loc) (w.locate t target)) ∧
    w.IgnoresSpelling t := by
  refine ⟨fun target => locate_eq_none_iff, fun target loc hp => ?_, ignoresSpelling h w⟩
  have hroot : w.root.IsNamed := by
    unfold ofPath at hw
    split at hw
    · cases hw
    · rename_i root hspelling
      cases hw
      exact (h.isReal_of_resolve hspelling).named
  have hreal := h.isReal_of_resolve hp
  exact ⟨hreal, judges_of_resolve hroot hreal.named hp⟩

/-- A workspace below a directory of packages, with one of its own, a directory beside it whose name
only begins like its own, and a link out of it to a link back. -/
private def reenteredTree : FileTree where
  entries := [(["node_modules".toList], .directory {}),
    (["node_modules".toList, ['w']], .directory {}),
    (["node_modules".toList, ['w'], ['f']], .file [] 420 0),
    (["node_modules".toList, ['w'], "node_modules".toList], .directory {}),
    (["node_modules".toList, ['w'], "node_modules".toList, ['f']], .file [] 420 0),
    (["node_modules".toList, ['w'], ['l']], .link "/o/b".toList),
    (["node_modules".toList, ['w', 'x']], .directory {}),
    (["node_modules".toList, ['w', 'x'], ['f']], .file [] 420 0),
    ([['o']], .directory {}), ([['o'], ['b']], .link "../node_modules/w".toList)]
  workingDirectory := some [['o']]

/-- By way of the two links a file of the workspace is found, one beside it is outside, and one of
its packages is forbidden; what is not there is missing. -/
theorem locate_exact_reentered :
    reenteredTree.WellFormed ∧
      ofPath reenteredTree ['b'] = .ok ⟨["node_modules".toList, ['w']]⟩ ∧
      Workspace.locate ⟨["node_modules".toList, ['w']]⟩ reenteredTree "l//./f".toList =
        .ok (some ⟨"l//./f".toList, "/node_modules/w/f".toList⟩) ∧
      Workspace.locate ⟨["node_modules".toList, ['w']]⟩ reenteredTree "l/../wx/f".toList =
        .error (.outside "/node_modules/wx/f".toList "/node_modules/w".toList) ∧
      Workspace.locate ⟨["node_modules".toList, ['w']]⟩ reenteredTree
          "/o/b/node_modules/f".toList =
        .error (.forbidden "/node_modules/w/node_modules/f".toList "node_modules".toList) ∧
      Workspace.locate ⟨["node_modules".toList, ['w']]⟩ reenteredTree "../w".toList ≠ .ok none ∧
      Workspace.locate ⟨["node_modules".toList, ['w']]⟩ reenteredTree "../g".toList = .ok none ∧
      Workspace.verdict ⟨["node_modules".toList, ['w']]⟩ reenteredTree "l//./f".toList =
        Workspace.verdict ⟨["node_modules".toList, ['w']]⟩ reenteredTree "../w/f".toList := by
  have hwell : reenteredTree.WellFormed := .of_entries (by decide +kernel) (by decide +kernel)
  have hroot : ofPath reenteredTree ['b'] = .ok ⟨["node_modules".toList, ['w']]⟩ := rfl
  obtain ⟨hmissing, hjudges, hspelling⟩ := locate_exact hwell hroot
  have hinside := (hjudges "l//./f".toList ["node_modules".toList, ['w'], ['f']] (by rfl)).2
  have houtside :=
    (hjudges "l/../wx/f".toList ["node_modules".toList, ['w', 'x'], ['f']] (by rfl)).2
  have hforbidden := (hjudges "/o/b/node_modules/f".toList
    ["node_modules".toList, ['w'], "node_modules".toList, ['f']] (by rfl)).2
  have hitself := (hjudges "../w".toList ["node_modules".toList, ['w']] (by rfl)).2
  refine ⟨hwell, hroot, ?_, ?_, ?_, hitself.present, ?_, ?_⟩
  · refine (hinside.found _).2 ⟨by unfold Path.LiesBelow; decide +kernel, ?_, rfl⟩
    rintro name ⟨hname, front, rest, hparts, -⟩
    -- Behind the parts of the root stands the name of the file only.
    have hsplit : Path.parts "/node_modules/w/f".toList =
        Path.parts "/node_modules/w".toList ++ [.name ['f']] := by decide +kernel
    have hbelow : .name name ∈ [PathPart.name ['f']] := by
      rw [List.append_cancel_left (hsplit.symm.trans hparts)]
      exact List.mem_append_right front List.mem_cons_self
    cases List.mem_singleton.1 hbelow
    exact absurd hname (by unfold IsForbiddenName; decide +kernel)
  · exact (houtside.outside _ _).2 ⟨by unfold Path.LiesBelow; decide +kernel, rfl, rfl⟩
  · refine (hforbidden.forbidden _ _).2 ⟨⟨.inl rfl, [], [.name ['f']], by decide +kernel, ?_⟩, rfl⟩
    exact nofun
  · refine (hmissing _).2 fun loc hloc => ?_
    have hnone : reenteredTree.resolve
        (Workspace.pathTo ⟨["node_modules".toList, ['w']]⟩ "../g".toList) = .error .notFound := by
      rfl
    rw [hnone] at hloc
    cases hloc
  · exact hspelling.same _ _ ["node_modules".toList, ['w'], ['f']] (by rfl) (by rfl)

end Workspace

end ClientPatch
