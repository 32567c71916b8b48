import ClientPatch.Proofs.FileReplacement

/-!
# Walks in a changed tree

A walk looks at the locations that it enters and at no other ones. So it goes on to end where it
ended when more is put into a tree, and it goes on as before, to the same failure even, when only
locations change whose name is spelled nowhere. A path that names an entry is walked to the
directory of the entry first; what stands on the way is never a file.
-/

namespace ClientPatch

namespace Text

/-- No piece is longer than the text. -/
theorem length_le_of_mem_splitOn {sep : Char} {t piece : Text} (h : piece ∈ splitOn sep t) :
    piece.length ≤ t.length := by
  induction t generalizing piece with
  | nil => simp [List.mem_singleton.1 h]
  | cons c t ih =>
    obtain ⟨first, pieces, ht⟩ := List.exists_cons_of_ne_nil (splitOn_ne_nil sep t)
    rw [ht] at ih
    have hfirst := ih List.mem_cons_self
    rw [splitOn, ht] at h
    rw [List.length_cons]
    split at h
    · rcases List.mem_cons.1 h with rfl | h
      · simp
      · have hle := ih h
        omega
    · rcases List.mem_cons.1 h with rfl | h
      · rw [List.length_cons]
        omega
      · have hle := ih (List.mem_cons_of_mem _ h)
        omega

end Text

namespace Path

/-- The last piece is a move in any case, the others where they count. -/
theorem movesOf_concat (pieces : List Text) (last : Text) :
    movesOf (pieces ++ [last]) =
      pieces.flatMap (fun piece => (move? piece).toList) ++ [(move? last).getD .stay] := by
  induction pieces with
  | nil => rfl
  | cons piece pieces ih =>
    obtain ⟨next, rest, h⟩ := List.exists_cons_of_ne_nil
      (List.append_ne_nil_of_right_ne_nil pieces (List.cons_ne_nil last []))
    rw [List.cons_append, h, movesOf, ← h, ih, List.flatMap_cons, List.append_assoc]
    simp

/-- A name is entered when it stands between the slashes. -/
theorem mem_of_enter_mem_movesOf {pieces : List Text} {name : Text}
    (h : .enter name ∈ movesOf pieces) : name ∈ pieces := by
  have hmove : ∀ piece, move? piece = some (.enter name) → piece = name := by
    intro piece hp
    unfold move? at hp
    split at hp
    · cases hp
    · split at hp
      · cases hp
      · split at hp
        · cases hp
        · cases hp
          rfl
  rcases List.eq_nil_or_concat pieces with rfl | ⟨front, last, rfl⟩
  · exact absurd h List.not_mem_nil
  · rw [List.concat_eq_append, movesOf_concat] at h
    rw [List.concat_eq_append]
    rcases List.mem_append.1 h with h | h
    · obtain ⟨piece, hpiece, hp⟩ := List.mem_flatMap.1 h
      rw [← hmove piece (Option.mem_toList.1 hp)]
      exact List.mem_append_left _ hpiece
    · have hlast : move? last = some (.enter name) := by
        cases hm : move? last with
        | none =>
          rw [hm] at h
          cases List.mem_singleton.1 h
        | some m =>
          rw [hm] at h
          exact congrArg some (List.mem_singleton.1 h).symm
      rw [hmove last hlast]
      exact List.mem_append_right _ List.mem_cons_self

end Path

namespace FileTree

/-- A location where nothing is need not be erased. -/
theorem erase_of_free {t : FileTree} {a : Location} (h : t.node? a = none) (ha : a ≠ []) :
    t.erase a = t := by
  rw [node?, if_neg ha, List.lookup_eq_none_iff] at h
  refine erase_of_unused fun e he heq => ?_
  have hne := h e he
  rw [heq] at hne
  simp at hne

variable {t t' : FileTree} {followLast : Bool} {loc dir stop : Location} {moves : List Move}

/-- A walk ends where it is without a link, or it ends behind the first link. -/
theorem walk_eq_ok_iff {links : Nat} :
    t.walk followLast links loc moves = .ok stop ↔
      t.walkToLink followLast loc moves = .ok (.reached stop) ∨
      ∃ dir target rest left, links = left + 1 ∧
        t.walkToLink followLast loc moves = .ok (.atLink dir target rest) ∧
        t.walk followLast left (if Path.isAbsolute target then [] else dir)
          (Path.moves target ++ rest) = .ok stop := by
  rw [walk_eq]
  cases hpause : t.walkToLink followLast loc moves with
  | error e => simp
  | ok pause =>
    cases pause with
    | reached end_ => simp
    | atLink dir target rest =>
      cases links with
      | zero => simp
      | succ links =>
        constructor
        · exact fun hw => Or.inr ⟨dir, target, rest, links, rfl, rfl, hw⟩
        · rintro (hw | ⟨_, _, _, _, he, hp, hw⟩)
          · cases hw
          · cases he
            cases hp
            exact hw

section Within

/-- What the one tree holds the other one holds, too. -/
def Within (t t' : FileTree) : Prop := ∀ a node, t.node? a = some node → t'.node? a = some node

theorem within_erase (t : FileTree) (a : Location) : (t.erase a).Within t := by
  intro b node hb
  rw [node?_erase] at hb
  split at hb
  · cases hb
  · exact hb

theorem within_put (t : FileTree) (a : Location) (node : Node) :
    (t.erase a).Within (t.put a node) := by
  intro b n hb
  rw [node?_erase] at hb
  rw [node?_put]
  split at hb
  · cases hb
  · rename_i hc
    rw [if_neg hc, hb]

theorem Within.walkToLink (h : t.Within t') {pause : Stop}
    (hw : t.walkToLink followLast loc moves = .ok pause) :
    t'.walkToLink followLast loc moves = .ok pause := by
  induction moves generalizing loc with
  | nil => exact hw
  | cons move moves ih =>
    cases move with
    | stay => exact ih hw
    | up => exact ih hw
    | enter name =>
      rw [FileTree.walkToLink] at hw ⊢
      split
      · rename_i hlong
        rw [if_pos hlong] at hw
        cases hw
      · rename_i hshort
        rw [if_neg hshort] at hw
        cases hnode : t.node? (loc ++ [name]) with
        | none =>
          rw [hnode] at hw
          cases hw
        | some node =>
          rw [hnode] at hw
          rw [h _ _ hnode]
          cases node with
          | directory s => exact ih hw
          | file bytes mode written => exact hw
          | link target => exact hw

/-- A walk that ends goes on to end there when more is put into the tree. -/
theorem Within.walk (h : t.Within t') {links : Nat}
    (hw : t.walk followLast links loc moves = .ok stop) :
    t'.walk followLast links loc moves = .ok stop := by
  induction links using Nat.strongRecOn generalizing loc moves with
  | ind links ih =>
    rw [walk_eq_ok_iff] at hw ⊢
    rcases hw with hw | ⟨dir, target, rest, left, rfl, hpause, hw⟩
    · exact Or.inl (h.walkToLink hw)
    · exact Or.inr ⟨dir, target, rest, left, rfl, h.walkToLink hpause,
        ih left (Nat.lt_succ_self left) hw⟩

end Within

section Front

variable {front : List Move}

/-- A walk comes to the last move when it comes to staying there instead, and goes on from where
it would have stayed. -/
theorem walkToLink_concat (t : FileTree) (followLast : Bool) (loc : Location) (front : List Move)
    (last : Move) :
    match t.walkToLink followLast loc (front ++ [.stay]) with
    | .error e => t.walkToLink followLast loc (front ++ [last]) = .error e
    | .ok (.reached dir) =>
      t.walkToLink followLast loc (front ++ [last]) = t.walkToLink followLast dir [last]
    | .ok (.atLink dir target rest) => ∃ behind, rest = behind ++ [.stay] ∧
        t.walkToLink followLast loc (front ++ [last]) =
          .ok (.atLink dir target (behind ++ [last])) := by
  induction front generalizing loc with
  | nil => rfl
  | cons move front ih =>
    cases move with
    | stay => exact ih loc
    | up => exact ih loc.dropLast
    | enter name =>
      rw [List.cons_append, List.cons_append, walkToLink, walkToLink]
      by_cases hlong : Text.size name > maxName
      · simp only [if_pos hlong]
      · simp only [if_neg hlong]
        cases hnode : t.node? (loc ++ [name]) with
        | none => rfl
        | some node =>
          cases node with
          | directory s => exact ih (loc ++ [name])
          | file bytes mode written => simp
          | link target => simp

/-- The same over links. -/
theorem walk_concat (t : FileTree) (followLast : Bool) (links : Nat) (loc : Location)
    (front : List Move) (last : Move) :
    match t.walk followLast links loc (front ++ [.stay]) with
    | .error e => t.walk followLast links loc (front ++ [last]) = .error e
    | .ok dir => ∃ left,
        t.walk followLast links loc (front ++ [last]) = t.walk followLast left dir [last] := by
  induction links using Nat.strongRecOn generalizing loc front with
  | _ links ih =>
    have hpause := t.walkToLink_concat followLast loc front last
    rw [walk_eq, walk_eq]
    cases hstay : t.walkToLink followLast loc (front ++ [.stay]) with
    | error e =>
      simp only [hstay] at hpause
      rw [hpause]
    | ok pause =>
      cases pause with
      | reached dir =>
        simp only [hstay] at hpause
        rw [hpause]
        exact ⟨links, by rw [walk_eq]⟩
      | atLink dir target rest =>
        simp only [hstay] at hpause
        obtain ⟨behind, rfl, hlast⟩ := hpause
        rw [hlast]
        cases links with
        | zero => rfl
        | succ links =>
          dsimp only
          rw [← List.append_assoc, ← List.append_assoc]
          exact ih links (Nat.lt_succ_self links) _ _

/-- No file stands on the way to a directory. -/
theorem walkToLink_erase_file {bytes : Bytes} {mode written : Nat} {a : Location}
    (hfile : t.node? a = some (.file bytes mode written)) {pause : Stop}
    (hw : t.walkToLink followLast loc (front ++ [.stay]) = .ok pause) :
    (t.erase a).walkToLink followLast loc (front ++ [.stay]) = .ok pause := by
  induction front generalizing loc with
  | nil => exact hw
  | cons move front ih =>
    cases move with
    | stay => exact ih hw
    | up => exact ih hw
    | enter name =>
      rw [List.cons_append, walkToLink] at hw ⊢
      split
      · rename_i hlong
        rw [if_pos hlong] at hw
        cases hw
      · rename_i hshort
        rw [if_neg hshort] at hw
        by_cases ha : loc ++ [name] = a
        · -- Behind the file there are moves left.
          rw [ha, hfile] at hw
          simp at hw
        · rw [node?_erase, if_neg fun hc => ha hc.1]
          cases hnode : t.node? (loc ++ [name]) with
          | none =>
            rw [hnode] at hw
            cases hw
          | some node =>
            rw [hnode] at hw
            cases node with
            | directory s => exact ih hw
            | file bytes mode written => exact hw
            | link target => exact hw

theorem walk_erase_file {bytes : Bytes} {mode written : Nat} {a : Location}
    (hfile : t.node? a = some (.file bytes mode written)) {links : Nat}
    (hw : t.walk followLast links loc (front ++ [.stay]) = .ok stop) :
    (t.erase a).walk followLast links loc (front ++ [.stay]) = .ok stop := by
  induction links using Nat.strongRecOn generalizing loc front with
  | ind links ih =>
    rw [walk_eq_ok_iff] at hw ⊢
    rcases hw with hw | ⟨dir, target, rest, left, rfl, hpause, hw⟩
    · exact Or.inl (walkToLink_erase_file hfile hw)
    · -- Behind the link the walk is still one to a directory.
      have hbehind := t.walkToLink_concat followLast loc front .stay
      rw [hpause] at hbehind
      obtain ⟨behind, rfl, -⟩ := hbehind
      rw [← List.append_assoc] at hw
      refine Or.inr ⟨dir, target, _, left, rfl, walkToLink_erase_file hfile hpause, ?_⟩
      rw [← List.append_assoc]
      exact ih left (Nat.lt_succ_self left) hw

end Front

section Unspelled

variable {name : Text} {p : Path}

/-- Neither the path nor a link of the tree spells the name. -/
structure IsUnspelled (t : FileTree) (p : Path) (name : Text) : Prop where
  /-- The path does not enter it. -/
  path : .enter name ∉ Path.moves p
  /-- What no link stands for enters it. -/
  link : ∀ loc target, t.node? loc = some (.link target) → .enter name ∉ Path.moves target

/-- The trees differ at most where something has the name. -/
def AgreeBut (name : Text) (t t' : FileTree) : Prop :=
  ∀ a n, n ≠ name → t'.node? (a ++ [n]) = t.node? (a ++ [n])

theorem AgreeBut.put (t : FileTree) (dir : Location) (name : Text) (node : Node) :
    AgreeBut name t (t.put (dir ++ [name]) node) := by
  intro a n hn
  rw [node?_put, if_neg]
  rintro ⟨he, -⟩
  exact hn (List.append_inj_right' he rfl |> List.singleton_inj.1)

/-- The moves behind a link were there before it, and the link stands in the tree. -/
theorem of_walkToLink_atLink {target : Path} {rest : List Move}
    (hw : t.walkToLink followLast loc moves = .ok (.atLink dir target rest)) :
    (∀ move ∈ rest, move ∈ moves) ∧ ∃ a, t.node? a = some (.link target) := by
  induction moves generalizing loc with
  | nil => cases hw
  | cons move moves ih =>
    have hskip : ∀ {loc}, t.walkToLink followLast loc moves = .ok (.atLink dir target rest) →
        (∀ m ∈ rest, m ∈ move :: moves) ∧ ∃ a, t.node? a = some (.link target) := by
      intro loc hw
      obtain ⟨hrest, hlink⟩ := ih hw
      exact ⟨fun m hm => List.mem_cons_of_mem move (hrest m hm), hlink⟩
    cases move with
    | stay => exact hskip hw
    | up => exact hskip hw
    | enter name =>
      rw [walkToLink] at hw
      split at hw
      · cases hw
      · split at hw
        · cases hw
        · exact hskip hw
        · split at hw <;> cases hw
        · rename_i hnode
          split at hw
          · cases hw
          · cases hw
            exact ⟨fun m hm => List.mem_cons_of_mem _ hm, _, hnode⟩

/-- A name that is longer than all others is spelled nowhere. -/
theorem isUnspelled_freshName (t : FileTree) (p : Path) : t.IsUnspelled p (t.freshName p) where
  path hp := by
    have hle := Text.length_le_of_mem_splitOn (Path.mem_of_enter_mem_movesOf hp)
    rw [freshName, List.length_replicate] at hle
    omega
  link loc target hnode hp := by
    have hentry : (loc, .link target) ∈ t.entries := by
      refine mem_entries hnode ?_
      rintro rfl
      cases hnode
    have htarget := length_le_nameLength _ hentry
    have hle := Text.length_le_of_mem_splitOn (Path.mem_of_enter_mem_movesOf hp)
    rw [freshName, List.length_replicate] at hle
    rw [targetLength] at htarget
    omega

/-- A walk does not see what has a name that it never enters. -/
theorem AgreeBut.walkToLink (h : AgreeBut name t t') (hm : .enter name ∉ moves) :
    t'.walkToLink followLast loc moves = t.walkToLink followLast loc moves := by
  induction moves generalizing loc with
  | nil => rfl
  | cons move moves ih =>
    have hrest : .enter name ∉ moves := fun hc => hm (List.mem_cons_of_mem move hc)
    cases move with
    | stay => exact ih hrest
    | up => exact ih hrest
    | enter n =>
      have hne : n ≠ name := by
        rintro rfl
        exact hm List.mem_cons_self
      rw [FileTree.walkToLink, FileTree.walkToLink, h _ _ hne]
      simp only [ih hrest]

theorem AgreeBut.walk (h : AgreeBut name t t')
    (hlink : ∀ a target, t.node? a = some (.link target) → .enter name ∉ Path.moves target)
    (links : Nat) (hm : .enter name ∉ moves) :
    t'.walk followLast links loc moves = t.walk followLast links loc moves := by
  induction links generalizing loc moves with
  | zero => rw [walk_eq, walk_eq, h.walkToLink hm]
  | succ links ih =>
    rw [walk_eq, walk_eq, h.walkToLink hm]
    split
    · rfl
    · rfl
    · rename_i dir target rest hpause
      obtain ⟨hrest, a, ha⟩ := of_walkToLink_atLink hpause
      refine ih fun hc => ?_
      rcases List.mem_append.1 hc with hc | hc
      · exact hlink a target ha hc
      · exact hm (hrest _ hc)

/-- A path leads where it led before, to the same failure even. -/
theorem AgreeBut.resolve (h : AgreeBut name t t') (hu : t.IsUnspelled p name)
    (hworking : t'.workingDirectory = t.workingDirectory) : t'.resolve p = t.resolve p := by
  have hbase : t'.base p = t.base p := by
    rw [base, base, hworking]
  rw [FileTree.resolve, FileTree.resolve, resolveBy, resolveBy, hbase]
  simp only [h.walk hu.link _ hu.path]

end Unspelled

section Entry

variable {p : Path} {name : Text}

/-- A path without slashes at its end is what stands before its last name, and that name. -/
theorem splitEntry_spec (h : (splitEntry p).2.2 = false) :
    p = (splitEntry p).1 ++ (splitEntry p).2.1 ∧ '/' ∉ (splitEntry p).2.1 ∧
      ((splitEntry p).1 = [] ∨ ∃ above, (splitEntry p).1 = above ++ ['/']) := by
  have hbare : (p.reverse.dropWhile (· == '/')).reverse = p := by
    simp only [splitEntry, decide_eq_false_iff_not, List.length_reverse] at h
    have hsuffix := List.dropWhile_suffix (· == '/') (l := p.reverse)
    rw [hsuffix.eq_of_length_le (by rw [List.length_reverse]; omega), List.reverse_reverse]
  have hsplit := List.takeWhile_append_dropWhile (p := (· ≠ '/')) (l := p.reverse)
  have hp : p = (p.reverse.dropWhile (· ≠ '/')).reverse ++
      (p.reverse.takeWhile (· ≠ '/')).reverse := by
    rw [← List.reverse_append, hsplit, List.reverse_reverse]
  have hfront : p.take (p.length - (p.reverse.takeWhile (· ≠ '/')).length) =
      (p.reverse.dropWhile (· ≠ '/')).reverse := by
    have hlength := congrArg List.length hp
    rw [List.length_append, List.length_reverse, List.length_reverse] at hlength
    have hlast : p.length - (p.reverse.takeWhile (· ≠ '/')).length =
        (p.reverse.dropWhile (· ≠ '/')).reverse.length := by
      rw [List.length_reverse]
      omega
    rw [hlast]
    exact (List.prefix_iff_eq_take.1 ⟨_, hp.symm⟩).symm
  simp only [splitEntry, hbare, List.length_reverse, hfront]
  refine ⟨hp, fun hslash => ?_, ?_⟩
  · simpa using List.all_eq_true.1 List.all_takeWhile _ (List.mem_reverse.1 hslash)
  · cases hdrop : p.reverse.dropWhile (· ≠ '/') with
    | nil => exact Or.inl rfl
    | cons c above =>
      have hc := List.head?_dropWhile_not (· ≠ '/') p.reverse
      rw [hdrop] at hc
      have hc : c = '/' := by simpa using hc
      exact Or.inr ⟨above.reverse, by rw [hc, List.reverse_cons]⟩

/-- A name behind the front of a path is entered last, and the front alone asks for a directory. -/
theorem exists_front_moves {above last : Text} (hslash : '/' ∉ last)
    (habove : above = [] ∨ ∃ top, above = top ++ ['/'])
    (hlast : Path.move? last = some (.enter last)) :
    ∃ front, Path.moves (above ++ last) = front ++ [.enter last] ∧
      Path.moves above = front ++ [.stay] := by
  rcases habove with rfl | ⟨top, rfl⟩
  · refine ⟨[], ?_, rfl⟩
    rw [List.nil_append, Path.moves, Text.splitOn_of_notMem hslash, Path.movesOf, hlast]
    rfl
  · have hmoves : ∀ piece, '/' ∉ piece → Path.moves (top ++ '/' :: piece) =
        (Text.splitOn '/' top).flatMap (fun piece => (Path.move? piece).toList) ++
          [(Path.move? piece).getD .stay] := by
      intro piece hpiece
      rw [Path.moves, Text.splitOn_append_sep, Text.splitOn_of_notMem hpiece, Path.movesOf_concat]
    refine ⟨_, ?_, hmoves [] List.not_mem_nil⟩
    rw [List.append_assoc, List.singleton_append, hmoves last hslash, hlast]
    rfl

/-- A path that names an entry enters its name last, and before that it walks to the directory that
holds it. So it does in any tree with the same working directory. -/
theorem exists_front_of_entry (h : t.entry p = .ok (dir, name)) :
    ∃ base front, Path.moves p = front ++ [.enter name] ∧ Text.size name ≤ maxName ∧
      t.walk true maxLinks base (front ++ [.stay]) = .ok dir ∧
      ∀ t' : FileTree, t'.workingDirectory = t.workingDirectory →
        t'.resolve p = t'.walk true maxLinks base (front ++ [.enter name]) ∧
        t'.entry p = (t'.walk true maxLinks base (front ++ [.stay])).map (·, name) := by
  have hspec := @splitEntry_spec p
  unfold entry at h
  generalize hs : splitEntry p = s at h hspec
  obtain ⟨above, last, slashed⟩ := s
  dsimp only at h hspec
  split at h
  · cases h
  rename_i hnull
  split at h
  · cases h
  rename_i hempty
  split at h
  · cases h
  rename_i hsize
  split at h
  · cases h
  rename_i base hbase
  split at h
  · cases h
  rename_i directory hdir
  split at h
  · cases h
  rename_i hlast
  split at h
  · cases h
  rename_i hshort
  split at h
  · cases h
  rename_i hslashed
  cases h
  obtain ⟨hp, hslash, habove⟩ := hspec (Bool.eq_false_iff.2 hslashed)
  obtain ⟨front, hwhole, hfront⟩ := exists_front_moves hslash habove (by
    simp only [not_or] at hlast
    simp [Path.move?, hlast])
  rw [← hp] at hwhole
  rw [hfront] at hdir
  refine ⟨base, front, hwhole, by omega, hdir, fun t' ht' => ?_⟩
  have hbase' : t'.base p = .ok base := by
    rw [← hbase, FileTree.base, FileTree.base, ht']
  refine ⟨?_, ?_⟩
  · rw [resolve, resolveBy, if_neg hnull, if_neg hempty, if_neg hsize, hbase', hwhole]
  · rw [entry, hs]
    dsimp only
    rw [if_neg hnull, if_neg hempty, if_neg hsize, hbase', hfront]
    dsimp only
    cases t'.walk true maxLinks base (front ++ [.stay]) with
    | error e => rfl
    | ok dir =>
      dsimp only
      rw [if_neg hlast, if_neg hshort, if_neg hslashed]
      rfl

/-- A path that names an entry of the changed tree names that of the first one. -/
theorem AgreeBut.entry {n : Text} (h : AgreeBut n t t') (hu : t.IsUnspelled p n)
    (hworking : t'.workingDirectory = t.workingDirectory)
    (hentry : t'.entry p = .ok (dir, name)) : t.entry p = .ok (dir, name) := by
  obtain ⟨base, front, hmoves, -, hdir, hwalk⟩ := exists_front_of_entry hentry
  have hfront : .enter n ∉ front ++ [.stay] := by
    intro hc
    refine hu.path ?_
    rw [hmoves]
    rcases List.mem_append.1 hc with hc | hc
    · exact List.mem_append_left _ hc
    · cases List.mem_singleton.1 hc
  rw [(hwalk t hworking.symm).2, ← h.walk hu.link _ hfront, hdir]
  rfl

/-- The name of an entry is spelled, so it is another one. -/
theorem IsUnspelled.entry_ne {n : Text} (hu : t.IsUnspelled p n)
    (hentry : t.entry p = .ok (dir, name)) (home : Location) : dir ++ [name] ≠ home ++ [n] := by
  intro he
  obtain rfl : name = n := List.singleton_inj.1 (List.append_inj_right' he rfl)
  obtain ⟨-, front, hmoves, -⟩ := exists_front_of_entry hentry
  exact hu.path (hmoves ▸ List.mem_append_right front List.mem_cons_self)

/-- The path crosses, on its way to the link that it names, that link itself: without the link it
names nothing. -/
def CrossesItself (t : FileTree) (p : Path) : Prop :=
  ∃ dir name target, t.entry p = .ok (dir, name) ∧
    t.node? (dir ++ [name]) = some (.link target) ∧
    ∀ dir' name', (t.erase (dir ++ [name])).entry p ≠ .ok (dir', name')

section Put

variable {bytes : Bytes} {mode written : Nat}

/-- Where a path comes by a file in the entry that it names, it comes by that entry only. -/
theorem walk_erase_of_put {links : Nat} {front : List Move} {dir' : Location}
    (hw : (t.put (dir ++ [name]) (.file bytes mode written)).walk true links loc
      (front ++ [.stay]) = .ok dir') :
    (t.erase (dir ++ [name])).walk true links loc (front ++ [.stay]) = .ok dir' := by
  have hfile : (t.put (dir ++ [name]) (.file bytes mode written)).node? (dir ++ [name]) =
      some (.file bytes mode written) := by
    rw [node?_put, if_pos ⟨rfl, by simp⟩]
  have herased := walk_erase_file hfile hw
  rwa [erase_put_self] at herased

/-- A path that does not cross itself comes to the directory of its entry without that entry. -/
theorem walk_erase_entry {links : Nat} {front : List Move}
    (hdir : t.walk true links loc (front ++ [.stay]) = .ok dir)
    (hno : ¬t.HoldsDirectory (dir ++ [name]))
    (hlink : ∀ target, t.node? (dir ++ [name]) = some (.link target) →
      ∃ dir', (t.erase (dir ++ [name])).walk true links loc (front ++ [.stay]) = .ok dir') :
    (t.erase (dir ++ [name])).walk true links loc (front ++ [.stay]) = .ok dir := by
  cases hnode : t.node? (dir ++ [name]) with
  | none => rwa [erase_of_free hnode (by simp)]
  | some node =>
    cases node with
    | directory s => exact absurd ⟨s, hnode⟩ hno
    | file bytes mode written => exact walk_erase_file hnode hdir
    | link target =>
      obtain ⟨dir', herased⟩ := hlink target hnode
      rw [herased]
      exact ((within_erase t _).walk herased).symm.trans hdir

/-- A path that does not cross itself leads to the file that is put where it names an entry. -/
theorem resolve_put_entry (hentry : t.entry p = .ok (dir, name))
    (hno : ¬t.HoldsDirectory (dir ++ [name])) (hcross : ¬t.CrossesItself p) :
    (t.put (dir ++ [name]) (.file bytes mode written)).resolve p = .ok (dir ++ [name]) := by
  obtain ⟨base, front, -, hsize, hdir, hwalk⟩ := exists_front_of_entry hentry
  obtain ⟨-, herased⟩ := hwalk (t.erase (dir ++ [name])) rfl
  obtain ⟨hput, -⟩ := hwalk (t.put (dir ++ [name]) (.file bytes mode written)) rfl
  have hdir := walk_erase_entry hdir hno fun target htarget => by
    cases hd : (t.erase (dir ++ [name])).walk true maxLinks base (front ++ [.stay]) with
    | ok dir' => exact ⟨dir', rfl⟩
    | error e =>
      refine absurd ⟨dir, name, target, hentry, htarget, fun _ _ he => ?_⟩ hcross
      rw [herased, hd] at he
      cases he
  have hbehind := (t.put (dir ++ [name]) (.file bytes mode written)).walk_concat true maxLinks base
    front (.enter name)
  rw [(within_put t _ _).walk hdir] at hbehind
  obtain ⟨left, hlast⟩ := hbehind
  rw [hput, hlast]
  refine walk_of_reached left ?_
  rw [walkToLink, if_neg (by omega), node?_put, if_pos ⟨rfl, by simp⟩]
  rfl

/-- A path leads nowhere else when a file is put where it names an entry, and it leads nowhere at
all when it crosses itself. -/
theorem of_resolve_put_entry (hentry : t.entry p = .ok (dir, name))
    (hno : ¬t.HoldsDirectory (dir ++ [name]))
    (hp : (t.put (dir ++ [name]) (.file bytes mode written)).resolve p = .ok loc) :
    loc = dir ++ [name] ∧ ¬t.CrossesItself p := by
  obtain ⟨base, front, -, -, -, hwalk⟩ := exists_front_of_entry hentry
  obtain ⟨-, herased⟩ := hwalk (t.erase (dir ++ [name])) rfl
  obtain ⟨hput, -⟩ := hwalk (t.put (dir ++ [name]) (.file bytes mode written)) rfl
  have hcross : ¬t.CrossesItself p := by
    rintro ⟨dir', name', target, hentry', -, hnone⟩
    cases hentry.symm.trans hentry'
    have hbehind := (t.put (dir ++ [name]) (.file bytes mode written)).walk_concat true maxLinks
      base front (.enter name)
    rw [hput] at hp
    split at hbehind
    · rw [hbehind] at hp
      cases hp
    · rename_i dir' hstay
      refine hnone dir' name ?_
      rw [herased, walk_erase_of_put hstay]
      rfl
  rw [resolve_put_entry hentry hno hcross] at hp
  exact ⟨(Except.ok.inj hp).symm, hcross⟩

end Put

end Entry

end FileTree

end ClientPatch
