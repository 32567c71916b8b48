import ClientPatch.FileTree.Resolve

/-!
# Well-formed trees

In a well-formed tree every name can be spelled in a path, every entry lies in a directory, and
the working directory is a directory. Every location on the way to an entry is then a directory,
and filling or emptying the place of a file or a link keeps the tree well formed.
-/

namespace ClientPatch

/-- Whether a text can name an entry of a directory. -/
def isEntryName (n : Text) : Bool :=
  n ≠ [] && n ≠ ['.'] && n ≠ ['.', '.'] && !n.elem '/' && !n.elem (Char.ofNat 0) &&
    n.size ≤ FileTree.maxName

namespace FileTree

/-- Whether a directory is at a location. -/
def HoldsDirectory (t : FileTree) (loc : Location) : Prop :=
  ∃ info, t.node? loc = some (.directory info)

/-- Names that can be spelled, entries in directories, and a directory to work in. -/
structure WellFormed (t : FileTree) : Prop where
  /-- Every name on the way to an entry can be spelled. -/
  named : ∀ loc node, t.node? loc = some node → ∀ name ∈ loc, isEntryName name
  /-- Every entry lies in a directory. -/
  held : ∀ loc name node, t.node? (loc ++ [name]) = some node → t.HoldsDirectory loc
  /-- The working directory is a directory. -/
  working : ∀ loc, t.workingDirectory = some loc → t.HoldsDirectory loc

/-- The root is a directory of every tree. -/
theorem holdsDirectory_root (t : FileTree) : t.HoldsDirectory [] := ⟨t.root, rfl⟩

namespace HoldsDirectory

variable {t : FileTree} {a b : Location}

/-- A directory is still there after a change at a place where none was. -/
theorem put (hb : t.HoldsDirectory b) (ha : ¬ t.HoldsDirectory a) (node : Node) :
    (t.put a node).HoldsDirectory b := by
  obtain ⟨s, hs⟩ := hb
  refine ⟨s, ?_⟩
  rw [node?_put, if_neg, hs]
  rintro ⟨rfl, -⟩
  exact ha ⟨s, hs⟩

/-- A directory is still there after a place where none was is emptied. -/
theorem erase (hb : t.HoldsDirectory b) (ha : ¬ t.HoldsDirectory a) :
    (t.erase a).HoldsDirectory b := by
  obtain ⟨s, hs⟩ := hb
  refine ⟨s, ?_⟩
  rw [node?_erase, if_neg, hs]
  rintro ⟨rfl, -⟩
  exact ha ⟨s, hs⟩

end HoldsDirectory

/-- A location with anything else is no directory. -/
theorem not_holdsDirectory {t : FileTree} {loc : Location} {node : Node}
    (h : t.node? loc = some node) (hnode : node.isDirectory = false) :
    ¬ t.HoldsDirectory loc := by
  rintro ⟨info, hinfo⟩
  cases h.symm.trans hinfo
  cases hnode

instance (t : FileTree) (loc : Location) : Decidable (t.HoldsDirectory loc) :=
  match h : t.node? loc with
  | some (.directory info) => .isTrue ⟨info, h⟩
  | some (.file ..) => .isFalse fun ⟨_, hs⟩ => nomatch h.symm.trans hs
  | some (.link _) => .isFalse fun ⟨_, hs⟩ => nomatch h.symm.trans hs
  | none => .isFalse fun ⟨_, hs⟩ => nomatch h.symm.trans hs

namespace WellFormed

variable {t : FileTree}

/-- It is enough to look at the entries that a tree lists. -/
theorem of_entries
    (hentries : ∀ e ∈ t.entries, (∀ name ∈ e.1, isEntryName name) ∧
      t.HoldsDirectory e.1.dropLast)
    (hworking : ∀ loc ∈ t.workingDirectory, t.HoldsDirectory loc) : t.WellFormed := by
  refine ⟨fun loc node hn => ?_, fun loc name node hn => ?_, fun loc hloc => hworking loc hloc⟩
  · by_cases hne : loc = []
    · simp [hne]
    · exact (hentries _ (mem_entries hn hne)).1
  · have hdir := (hentries _ (mem_entries hn (by simp))).2
    rwa [List.dropLast_concat] at hdir

/-- Every location on the way to an entry is a directory. -/
theorem holdsDirectory_append (h : t.WellFormed) (a : Location) {b : Location} (hb : b ≠ [])
    {node : Node} (hn : t.node? (a ++ b) = some node) : t.HoldsDirectory a := by
  induction b generalizing a with
  | nil => exact absurd rfl hb
  | cons name b ih =>
    by_cases hb' : b = []
    · subst hb'
      exact h.held a name node hn
    · rw [show a ++ name :: b = (a ++ [name]) ++ b by simp] at hn
      obtain ⟨s, hs⟩ := ih (a ++ [name]) hb' hn
      exact h.held a name _ hs

/-- An entry may be put into a directory, in place of what is no directory. -/
theorem put (h : t.WellFormed) {loc : Location} {name : Text} (node : Node)
    (hl : t.HoldsDirectory loc) (hn : isEntryName name)
    (ha : ¬ t.HoldsDirectory (loc ++ [name])) : (t.put (loc ++ [name]) node).WellFormed where
  named b m hb := by
    rw [node?_put] at hb
    split at hb
    · rename_i hc
      obtain ⟨rfl, -⟩ := hc
      intro x hx
      obtain ⟨s, hs⟩ := hl
      rcases List.mem_append.1 hx with hx | hx
      · exact h.named _ _ hs x hx
      · obtain rfl : x = name := by simpa using hx
        exact hn
    · exact h.named b m hb
  held b x m hb := by
    rw [node?_put] at hb
    split at hb
    · rename_i hc
      obtain ⟨rfl, rfl⟩ : b = loc ∧ x = name := by simpa using hc.1
      exact hl.put ha node
    · exact (h.held b x m hb).put ha node
  working b hb := (h.working b hb).put ha node

/-- The place of what is no directory may be emptied. -/
theorem erase (h : t.WellFormed) {a : Location} (ha : ¬ t.HoldsDirectory a) :
    (t.erase a).WellFormed where
  named b m hb := by
    rw [node?_erase] at hb
    split at hb
    · cases hb
    · exact h.named b m hb
  held b x m hb := by
    rw [node?_erase] at hb
    split at hb
    · cases hb
    · exact (h.held b x m hb).erase ha
  working b hb := (h.working b hb).erase ha

end WellFormed

end FileTree

end ClientPatch
