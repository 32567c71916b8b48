import ClientPatch.FileTree.WellFormed

/-!
# Real paths

A walk that follows all links ends at a directory or a file, never at a link, and the path of
the location that it ends at is its real path. Read again, a real path gives back the names of
its location, and as long as none of its parts has become a link, it leads to the location and
to no other one. So two locations with the same path are the same, and to be found at one's
own real path is to have no link on the way.
-/

namespace ClientPatch

namespace Text

theorem splitOn_of_notMem {sep : Char} {t : Text} (h : sep ∉ t) : splitOn sep t = [t] := by
  induction t with
  | nil => rfl
  | cons c t ih =>
    obtain ⟨hc, ht⟩ : ¬c = sep ∧ sep ∉ t := by simpa [eq_comm] using h
    rw [splitOn, if_neg hc, ih ht]

/-- At a separator the pieces of both sides come apart. -/
theorem splitOn_append_sep (sep : Char) (t u : Text) :
    splitOn sep (t ++ sep :: u) = splitOn sep t ++ splitOn sep u := by
  induction t with
  | nil => simp [splitOn]
  | cons c t ih =>
    obtain ⟨piece, pieces, ht⟩ := List.exists_cons_of_ne_nil (splitOn_ne_nil sep t)
    rw [List.cons_append, splitOn, splitOn, ih, ht]
    split <;> rfl

theorem splitOn_append_cons {sep : Char} {t : Text} (h : sep ∉ t) (u : Text) :
    splitOn sep (t ++ sep :: u) = t :: splitOn sep u := by
  rw [splitOn_append_sep, splitOn_of_notMem h, List.singleton_append]

/-- Names behind slashes are read back, and so is what stands before the first slash. -/
theorem splitOn_append_flatMap {sep : Char} {t : Text} {names : List Text} (ht : sep ∉ t)
    (h : ∀ name ∈ names, sep ∉ name) :
    splitOn sep (t ++ names.flatMap (sep :: ·)) = t :: names := by
  induction names generalizing t with
  | nil => rw [List.flatMap_nil, List.append_nil, splitOn_of_notMem ht]
  | cons name names ih =>
    rw [List.flatMap_cons, List.cons_append, splitOn_append_cons ht,
      ih (h name List.mem_cons_self) fun n hn => h n (List.mem_cons_of_mem name hn)]

/-- Slashes between names, with one in front, are slashes before names. -/
theorem cons_joinWith (sep : Char) {names : List Text} (h : names ≠ []) :
    sep :: joinWith [sep] names = names.flatMap (sep :: ·) := by
  induction names with
  | nil => exact absurd rfl h
  | cons name names ih =>
    cases names with
    | nil => simp [joinWith]
    | cons n names =>
      have hrest := ih (List.cons_ne_nil n names)
      rw [List.flatMap_cons, ← hrest, joinWith]
      · simp
      · simp

end Text

theorem isEntryName_iff {n : Text} :
    isEntryName n = true ↔ n ≠ [] ∧ n ≠ ['.'] ∧ n ≠ ['.', '.'] ∧ '/' ∉ n ∧ Char.ofNat 0 ∉ n ∧
      n.size ≤ FileTree.maxName := by
  simp [isEntryName, and_assoc]

/-- All names of the location can be spelled in a path. -/
def Location.IsNamed (loc : Location) : Prop := ∀ name ∈ loc, isEntryName name = true

theorem Location.eq_root_or_entry (loc : Location) :
    loc = [] ∨ ∃ (dir : Location) (name : Text), loc = dir ++ [name] := by
  rcases List.eq_nil_or_concat loc with h | ⟨dir, name, h⟩
  · exact Or.inl h
  · exact Or.inr ⟨dir, name, by rw [h, List.concat_eq_append]⟩

namespace Location.IsNamed

variable {loc : Location}

theorem left {names : List Text} (h : Location.IsNamed (loc ++ names)) : loc.IsNamed :=
  fun name hname => h name (List.mem_append_left names hname)

theorem slash_notMem (h : loc.IsNamed) : ∀ name ∈ loc, '/' ∉ name :=
  fun name hname => (isEntryName_iff.1 (h name hname)).2.2.2.1

end Location.IsNamed

namespace Path

theorem part?_of_isEntryName {name : Text} (h : isEntryName name = true) :
    part? name = some (.name name) := by
  obtain ⟨hnil, hdot, hup, -⟩ := isEntryName_iff.1 h
  simp [part?, hnil, hdot, hup]

theorem filterMap_part?_names {names : List Text} (h : Location.IsNamed names) :
    names.filterMap part? = names.map .name := by
  induction names with
  | nil => rfl
  | cons name names ih =>
    rw [List.filterMap_cons, part?_of_isEntryName (h name List.mem_cons_self),
      ih fun n hn => h n (List.mem_cons_of_mem name hn)]
    rfl

theorem move?_of_isEntryName {name : Text} (h : isEntryName name = true) :
    move? name = some (.enter name) := by
  obtain ⟨hnil, hdot, hup, -⟩ := isEntryName_iff.1 h
  simp [move?, hnil, hdot, hup]

/-- Names between slashes are entered one after another. -/
theorem movesOf_names {names : List Text} (h : Location.IsNamed names) :
    movesOf names = names.map .enter := by
  induction names with
  | nil => rfl
  | cons name names ih =>
    have hmove := move?_of_isEntryName (h name List.mem_cons_self)
    have hrest := ih fun n hn => h n (List.mem_cons_of_mem name hn)
    cases names with
    | nil => simp [movesOf, hmove]
    | cons n names => simp [movesOf, hmove, hrest]

/-- A slash at the end asks for a directory. -/
theorem movesOf_names_slash {names : List Text} (h : Location.IsNamed names) :
    movesOf (names ++ [[]]) = names.map .enter ++ [.stay] := by
  induction names with
  | nil => rfl
  | cons name names ih =>
    have hmove := move?_of_isEntryName (h name List.mem_cons_self)
    have hrest := ih fun n hn => h n (List.mem_cons_of_mem name hn)
    obtain ⟨piece, pieces, hp⟩ := List.exists_cons_of_ne_nil
      (List.append_ne_nil_of_right_ne_nil names (List.cons_ne_nil ([] : Text) []))
    rw [hp] at hrest
    rw [List.cons_append, hp, movesOf, hmove, hrest]
    · rfl
    · simp

end Path

namespace FileTree

section Spelling

variable {loc : Location} {name : Text}

theorem pathOf_of_ne_nil (h : loc ≠ []) : pathOf loc = loc.flatMap ('/' :: ·) := by
  cases loc with
  | nil => exact absurd rfl h
  | cons n loc => rfl

theorem pathOf_concat (loc : Location) (name : Text) :
    pathOf (loc ++ [name]) = loc.flatMap ('/' :: ·) ++ '/' :: name := by
  rw [pathOf_of_ne_nil (by simp)]
  simp

theorem isAbsolute_pathOf (loc : Location) : Path.isAbsolute (pathOf loc) = true := by
  cases loc <;> rfl

theorem pathOf_ne_nil (loc : Location) : pathOf loc ≠ [] := by
  cases loc <;> simp [pathOf]

theorem null_notMem_pathOf (h : loc.IsNamed) : Char.ofNat 0 ∉ pathOf loc := by
  cases loc with
  | nil => decide
  | cons n loc =>
    intro hmem
    obtain ⟨name, hname, hc⟩ := List.mem_flatMap.1 hmem
    rcases List.mem_cons.1 hc with hc | hc
    · revert hc
      decide
    · exact (isEntryName_iff.1 (h name hname)).2.2.2.2.1 hc

theorem splitOn_pathOf (h : loc.IsNamed) (hne : loc ≠ []) :
    Text.splitOn '/' (pathOf loc) = [] :: loc := by
  rw [pathOf_of_ne_nil hne]
  exact Text.splitOn_append_flatMap (t := []) List.not_mem_nil h.slash_notMem

/-- The parts of a real path are the root and the names of the location. -/
theorem parts_pathOf (h : loc.IsNamed) :
    Path.parts (pathOf loc) = .root :: loc.map .name := by
  by_cases hne : loc = []
  · subst hne
    rfl
  · rw [Path.parts, splitOn_pathOf h hne, isAbsolute_pathOf, if_pos rfl, List.filterMap_cons,
      Path.filterMap_part?_names h]
    rfl

/-- Two locations with the same path are the same. -/
theorem pathOf_inj {a b : Location} (ha : a.IsNamed) (hb : b.IsNamed)
    (h : Path.parts (pathOf a) = Path.parts (pathOf b)) : a = b := by
  rw [parts_pathOf ha, parts_pathOf hb] at h
  exact (List.map_inj_right fun _ _ hmn => PathPart.name.inj hmn).1 (List.cons.inj h).2

theorem moves_pathOf (h : loc.IsNamed) (hne : loc ≠ []) :
    Path.moves (pathOf loc) = loc.map .enter := by
  have hmoves := Path.movesOf_names h
  rw [Path.moves, splitOn_pathOf h hne]
  cases loc with
  | nil => exact absurd rfl hne
  | cons n loc =>
    rw [Path.movesOf, hmoves]
    · rfl
    · simp

/-- Without its last part a real path is the real path of the directory. -/
theorem parent?_pathOf (h : Location.IsNamed (loc ++ [name])) :
    Path.parent? (pathOf (loc ++ [name])) = some (pathOf loc) := by
  have hparts : Path.parts (pathOf (loc ++ [name])) =
      (.root :: loc.map .name) ++ [.name name] := by
    rw [parts_pathOf h]
    simp
  rw [Path.parent?, hparts, List.getLast?_concat, List.dropLast_concat]
  refine congrArg some ?_
  have hspelling : (loc.map PathPart.name).map (·.spelling) = loc := by
    simp [Function.comp_def, PathPart.spelling]
  change '/' :: Path.ofRelative (loc.map PathPart.name) = _
  rw [Path.ofRelative, hspelling]
  by_cases hne : loc = []
  · subst hne
    rfl
  · rw [Text.cons_joinWith '/' hne, pathOf_of_ne_nil hne]

/-- A real path ends with the name of the entry, behind the slash of its directory. -/
theorem splitEntry_pathOf (h : Location.IsNamed (loc ++ [name])) :
    splitEntry (pathOf (loc ++ [name])) = (loc.flatMap ('/' :: ·) ++ ['/'], name, false) := by
  obtain ⟨hnil, -, -, hslash, -⟩ := isEntryName_iff.1 (h name (by simp))
  have hreverse : (pathOf (loc ++ [name])).reverse =
      name.reverse ++ '/' :: (loc.flatMap ('/' :: ·)).reverse := by
    rw [pathOf_concat]
    simp
  have hbare : (pathOf (loc ++ [name])).reverse.dropWhile (· == '/') =
      (pathOf (loc ++ [name])).reverse := by
    rw [hreverse]
    obtain ⟨c, cs, hc⟩ := List.exists_cons_of_ne_nil (List.reverse_ne_nil_iff.2 hnil)
    have hne : c ≠ '/' := by
      rintro rfl
      exact hslash (List.mem_reverse.1 (hc ▸ List.mem_cons_self))
    rw [hc, List.cons_append, List.dropWhile_cons_of_neg (by simpa using hne)]
  have hname : (pathOf (loc ++ [name])).reverse.takeWhile (· ≠ '/') = name.reverse := by
    rw [hreverse, List.takeWhile_append_of_pos]
    · simp
    · intro c hc
      simpa using fun he : c = '/' => hslash (he ▸ List.mem_reverse.1 hc)
  have hfront : (pathOf (loc ++ [name])).take ((pathOf (loc ++ [name])).length - name.length) =
      loc.flatMap ('/' :: ·) ++ ['/'] := by
    rw [pathOf_concat, show loc.flatMap ('/' :: ·) ++ '/' :: name =
      (loc.flatMap ('/' :: ·) ++ ['/']) ++ name by simp, List.take_left' ?_]
    simp only [List.length_append, Nat.add_sub_cancel]
  simp only [splitEntry, hbare, List.reverse_reverse, hname, hfront, Nat.lt_irrefl, decide_false]

theorem moves_front (h : loc.IsNamed) :
    Path.moves (loc.flatMap ('/' :: ·) ++ ['/']) = loc.map .enter ++ [.stay] := by
  have hslashes : Text.splitOn '/' ([] ++ (loc ++ [[]]).flatMap ('/' :: ·)) =
      [] :: (loc ++ [[]]) := by
    refine Text.splitOn_append_flatMap List.not_mem_nil fun n hn => ?_
    rcases List.mem_append.1 hn with hn | hn
    · exact h.slash_notMem n hn
    · rw [List.mem_singleton.1 hn]
      exact List.not_mem_nil
  have hpieces : ∃ piece pieces, loc ++ [[]] = piece :: pieces :=
    List.exists_cons_of_ne_nil (by simp)
  obtain ⟨piece, pieces, hp⟩ := hpieces
  have hmoves := Path.movesOf_names_slash h
  rw [Path.moves, show loc.flatMap ('/' :: ·) ++ ['/'] =
    [] ++ (loc ++ [[]]).flatMap ('/' :: ·) by simp, hslashes]
  rw [hp] at hmoves ⊢
  rw [Path.movesOf, hmoves]
  · rfl
  · simp

end Spelling

variable {t : FileTree} {loc : Location}

/-- The location is reached without a link: only directories stand above it, and what stands at
it is no link. -/
structure IsReal (t : FileTree) (loc : Location) : Prop where
  /-- The names can be spelled. -/
  named : loc.IsNamed
  /-- The locations above are directories. -/
  above : ∀ a, a <+: loc.dropLast → t.HoldsDirectory a
  /-- Something stands there, and it is no link. -/
  there : ∃ node, t.node? loc = some node ∧ ∀ target, node ≠ .link target

/-- In a well-formed tree what is no link stands at a real location. -/
theorem WellFormed.isReal (h : t.WellFormed) {node : Node} (hn : t.node? loc = some node)
    (hlink : ∀ target, node ≠ .link target) : t.IsReal loc where
  named := h.named loc node hn
  above a ha := by
    obtain ⟨b, hb⟩ := ha
    rcases loc.eq_root_or_entry with rfl | ⟨dir, name, rfl⟩
    · obtain ⟨rfl, -⟩ := List.append_eq_nil_iff.1 hb
      exact t.holdsDirectory_root
    · rw [List.dropLast_concat] at hb
      subst hb
      rw [List.append_assoc] at hn
      exact h.holdsDirectory_append a (by simp) hn
  there := ⟨node, hn, hlink⟩

theorem WellFormed.isReal_of_holdsDirectory (h : t.WellFormed) (hd : t.HoldsDirectory loc) :
    t.IsReal loc := by
  obtain ⟨s, hs⟩ := hd
  exact h.isReal hs fun _ he => nomatch he

/-- No link stands on the way to a real location. -/
theorem IsReal.not_link (h : t.IsReal loc) {a : Location} (ha : a <+: loc) (target : Path) :
    t.node? a ≠ some (.link target) := by
  intro hlink
  have hcase : a = loc ∨ a <+: loc.dropLast := by
    rcases loc.eq_root_or_entry with rfl | ⟨dir, name, rfl⟩
    · exact Or.inl (List.prefix_nil.1 ha)
    · rw [List.dropLast_concat]
      exact List.prefix_concat_iff.1 ha
  rcases hcase with rfl | hup
  · obtain ⟨node, hn, hne⟩ := h.there
    exact hne target (Option.some.inj (hn.symm.trans hlink))
  · obtain ⟨s, hs⟩ := h.above a hup
    rw [hs] at hlink
    cases hlink

section Walk

variable {names : List Text} {rest : List Move} {followLast : Bool}

/-- A walk goes down through directories. -/
theorem walkToLink_names (hnames : Location.IsNamed names)
    (hd : ∀ a, a <+: names → t.HoldsDirectory (loc ++ a)) (rest : List Move) :
    t.walkToLink followLast loc (names.map .enter ++ rest) =
      t.walkToLink followLast (loc ++ names) rest := by
  induction names generalizing loc with
  | nil => simp
  | cons name names ih =>
    have hsize := (isEntryName_iff.1 (hnames name List.mem_cons_self)).2.2.2.2.2
    obtain ⟨s, hs⟩ := hd [name] ⟨names, rfl⟩
    have hrest := @ih (loc ++ [name]) (fun n hn => hnames n (List.mem_cons_of_mem name hn))
      fun a ha => by simpa using hd (name :: a) (by simpa using ha)
    rw [List.map_cons, List.cons_append, walkToLink, if_neg (by omega), hs]
    simpa using hrest

/-- Where no link stands on the way, a walk that does not fail ends where its names say. -/
theorem walkToLink_unlinked (hnames : Location.IsNamed names)
    (hlink : ∀ a, a <+: names → ∀ target, t.node? (loc ++ a) ≠ some (.link target)) {stop : Stop}
    (h : t.walkToLink followLast loc (names.map .enter) = .ok stop) :
    stop = .reached (loc ++ names) := by
  induction names generalizing loc with
  | nil =>
    cases h
    rw [List.append_nil]
  | cons name names ih =>
    have hsize := (isEntryName_iff.1 (hnames name List.mem_cons_self)).2.2.2.2.2
    have hlater : ∀ a, a <+: names → ∀ target,
        t.node? (loc ++ [name] ++ a) ≠ some (.link target) := fun a ha => by
      simpa using hlink (name :: a) (by simpa using ha)
    have hfirst := hlink [name] ⟨names, rfl⟩
    rw [List.map_cons, walkToLink, if_neg (by omega)] at h
    split at h
    · cases h
    · have hstop := ih (fun n hn => hnames n (List.mem_cons_of_mem name hn)) hlater h
      simpa using hstop
    · split at h
      · rename_i hempty
        obtain rfl : names = [] := by simpa using hempty
        cases h
        rfl
      · cases h
    · rename_i target htarget
      exact absurd htarget (hfirst target)

theorem walk_eq (links : Nat) (loc : Location) (moves : List Move) :
    t.walk followLast links loc moves =
      match t.walkToLink followLast loc moves with
      | .error e => .error e
      | .ok (.reached loc) => .ok loc
      | .ok (.atLink directory target rest) =>
        match links with
        | 0 => .error .tooManyLinks
        | links + 1 =>
          t.walk followLast links (if Path.isAbsolute target then [] else directory)
            (Path.moves target ++ rest) := by
  cases links <;> exact walk.eq_def ..

theorem walk_of_reached {moves : List Move} {stop : Location} (links : Nat)
    (h : t.walkToLink followLast loc moves = .ok (.reached stop)) :
    t.walk followLast links loc moves = .ok stop := by
  rw [walk_eq, h]

/-- The walk ended at a real location, or paused at a link in a directory. -/
def Stop.Sound (t : FileTree) : Stop → Prop
  | .reached loc => t.IsReal loc
  | .atLink directory _ _ => t.HoldsDirectory directory

theorem WellFormed.sound_walkToLink (h : t.WellFormed) (hd : t.HoldsDirectory loc)
    {moves : List Move} {stop : Stop} (hw : t.walkToLink true loc moves = .ok stop) :
    stop.Sound t := by
  induction moves generalizing loc with
  | nil =>
    cases hw
    exact h.isReal_of_holdsDirectory hd
  | cons move moves ih =>
    cases move with
    | stay => exact ih hd hw
    | up =>
      refine ih ?_ hw
      rcases loc.eq_root_or_entry with rfl | ⟨dir, name, rfl⟩
      · exact hd
      · obtain ⟨s, hs⟩ := hd
        rw [List.dropLast_concat]
        exact h.held dir name _ hs
    | enter name =>
      rw [walkToLink] at hw
      split at hw
      · cases hw
      · split at hw
        · cases hw
        · rename_i hnode
          exact ih ⟨_, hnode⟩ hw
        · rename_i hnode
          split at hw
          · cases hw
            exact h.isReal hnode fun _ he => nomatch he
          · cases hw
        · split at hw
          · rename_i hcond
            simp at hcond
          · cases hw
            exact hd

theorem WellFormed.isReal_of_walk (h : t.WellFormed) {links : Nat} {moves : List Move}
    {stop : Location} (hd : t.HoldsDirectory loc) (hw : t.walk true links loc moves = .ok stop) :
    t.IsReal stop := by
  -- Each link that is followed begins a new walk, from the root or from where the link stands.
  induction links generalizing loc moves with
  | zero =>
    rw [walk_eq] at hw
    split at hw
    · cases hw
    · rename_i hstop
      cases hw
      exact h.sound_walkToLink hd hstop
    · cases hw
  | succ links ih =>
    rw [walk_eq] at hw
    split at hw
    · cases hw
    · rename_i hstop
      cases hw
      exact h.sound_walkToLink hd hstop
    · rename_i hstop
      refine ih ?_ hw
      split
      · exact t.holdsDirectory_root
      · exact h.sound_walkToLink hd hstop

end Walk

theorem pathExists_iff {p : Path} : t.pathExists p = true ↔ ∃ loc, t.resolve p = .ok loc := by
  rw [pathExists]
  cases t.resolve p with
  | error e => exact iff_of_false Bool.false_ne_true (by simp)
  | ok loc => exact iff_of_true rfl ⟨loc, rfl⟩

/-- A path that leads somewhere is short enough. -/
theorem size_le_of_resolve {p : Path} (h : t.resolve p = .ok loc) : Text.size p ≤ maxPath := by
  unfold resolve resolveBy at h
  split at h
  · cases h
  · split at h
    · cases h
    · split at h
      · cases h
      · omega

/-- A path leads to a real location. -/
theorem WellFormed.isReal_of_resolve (h : t.WellFormed) {p : Path}
    (hp : t.resolve p = .ok loc) : t.IsReal loc := by
  unfold resolve resolveBy at hp
  split at hp
  · cases hp
  · split at hp
    · cases hp
    · split at hp
      · cases hp
      · split at hp
        · cases hp
        · rename_i hbase
          refine h.isReal_of_walk ?_ hp
          unfold base at hbase
          split at hbase
          · cases hbase
            exact t.holdsDirectory_root
          · split at hbase
            · rename_i hdir
              cases hbase
              exact h.working _ hdir
            · cases hbase

/-- A real path is walked from the root. -/
theorem resolve_pathOf_eq_walk (h : loc.IsNamed) (hsize : Text.size (pathOf loc) ≤ maxPath) :
    t.resolve (pathOf loc) = t.walk true maxLinks [] (Path.moves (pathOf loc)) := by
  have hnull : (pathOf loc).elem (Char.ofNat 0) = false := by
    simpa using null_notMem_pathOf h
  have hempty : (pathOf loc).isEmpty = false := by
    simpa using pathOf_ne_nil loc
  rw [resolve, resolveBy, hnull, hempty, if_neg (by simp), if_neg (by simp), if_neg (by omega),
    base, isAbsolute_pathOf, if_pos rfl]

/-- The path of a real location leads to it. -/
theorem IsReal.resolve (h : t.IsReal loc) (hsize : Text.size (pathOf loc) ≤ maxPath) :
    t.resolve (pathOf loc) = .ok loc := by
  rw [resolve_pathOf_eq_walk h.named hsize]
  refine walk_of_reached _ ?_
  rcases loc.eq_root_or_entry with rfl | ⟨dir, name, rfl⟩
  · rfl
  · have hlast := (isEntryName_iff.1 (h.named name (by simp))).2.2.2.2.2
    have habove : ∀ a, a <+: dir → t.HoldsDirectory ([] ++ a) := fun a ha =>
      h.above a (by simpa using ha)
    rw [moves_pathOf h.named (by simp), List.map_append,
      walkToLink_names (Location.IsNamed.left h.named) habove, List.nil_append, List.map_singleton,
      walkToLink, if_neg (by omega)]
    obtain ⟨node, hnode, hlink⟩ := h.there
    rw [hnode]
    cases node with
    | directory s => rfl
    | file bytes mode written => rfl
    | link target => exact absurd rfl (hlink target)

/-- The path of a real location leads nowhere else. -/
theorem IsReal.eq_of_resolve (h : t.IsReal loc) {loc' : Location}
    (hp : t.resolve (pathOf loc) = .ok loc') : loc' = loc := by
  rw [h.resolve (size_le_of_resolve hp)] at hp
  exact (Except.ok.inj hp).symm

/-- To be found at one's own real path is to be found there without a link on the way. -/
theorem WellFormed.resolve_pathOf_iff (h : t.WellFormed) (hloc : loc.IsNamed) :
    t.resolve (pathOf loc) = .ok loc ↔ t.pathExists (pathOf loc) = true ∧
      ∀ a, a <+: loc → ∀ target, t.node? a ≠ some (.link target) := by
  constructor
  · intro hp
    refine ⟨by rw [pathExists, hp]; rfl, fun a ha => ?_⟩
    exact (h.isReal_of_resolve hp).not_link ha
  · rintro ⟨hexists, hlink⟩
    cases hp : t.resolve (pathOf loc) with
    | error e =>
      rw [pathExists, hp] at hexists
      cases hexists
    | ok stop =>
      by_cases hne : loc = []
      · subst hne
        rw [(h.isReal_of_holdsDirectory t.holdsDirectory_root).eq_of_resolve hp]
      · have hsize := size_le_of_resolve hp
        rw [resolve_pathOf_eq_walk hloc hsize, moves_pathOf hloc hne, walk_eq] at hp
        -- The first part of the walk meets no link, so it is the whole walk.
        split at hp
        · cases hp
        · rename_i hstop
          have hreached := walkToLink_unlinked hloc (by simpa using hlink) hstop
          cases hp
          cases hreached
          rfl
        · rename_i hstop
          have hreached := walkToLink_unlinked hloc (by simpa using hlink) hstop
          cases hreached

/-- The real path of an entry names it. -/
theorem entry_pathOf {name : Text} (hnamed : Location.IsNamed (loc ++ [name]))
    (habove : ∀ a, a <+: loc → t.HoldsDirectory a)
    (hsize : Text.size (pathOf (loc ++ [name])) ≤ maxPath) :
    t.entry (pathOf (loc ++ [name])) = .ok (loc, name) := by
  obtain ⟨hnil, hdot, hup, -, -, hlast⟩ := isEntryName_iff.1 (hnamed name (by simp))
  have hnull : (pathOf (loc ++ [name])).elem (Char.ofNat 0) = false := by
    simpa using null_notMem_pathOf hnamed
  have hempty : (pathOf (loc ++ [name])).isEmpty = false := by
    simpa using pathOf_ne_nil (loc ++ [name])
  have hwalk : t.walk true maxLinks [] (Path.moves (loc.flatMap ('/' :: ·) ++ ['/'])) =
      .ok loc := by
    refine walk_of_reached _ ?_
    rw [moves_front hnamed.left, walkToLink_names hnamed.left fun a ha => habove a (by simpa)]
    rfl
  rw [entry, splitEntry_pathOf hnamed]
  simp only [hnull, hempty, base, isAbsolute_pathOf, if_true, hwalk]
  simp only [Bool.false_eq_true, if_false, hnil, hdot, hup, or_self]
  rw [if_neg (by omega), if_neg (by omega)]

end FileTree

end ClientPatch
