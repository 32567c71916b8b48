import ClientPatch.Text.Utf8

/-!
# File trees

A file tree maps locations to directories, regular files and symbolic links. A location is the
list of names from the root down, without any link in mind; the root itself is always a
directory. `put` and `erase` change one location and no other, which is all that is known of
them elsewhere. Directories and files have permission bits. A file shows the moment at which it was
last written, and what is written next is written later than all that a tree shows, so that no
write goes unseen.
-/

namespace ClientPatch

/-- A location by its names, from the root down. -/
abbrev Location := List Text

/-- What is known of a directory beside its entries. -/
structure DirectoryInfo where
  /-- Whether it admits no new names. -/
  isSealed : Bool := false
  /-- Its permission bits; unless told otherwise, all may look and its owner may change it. -/
  mode : Nat := 0o755
  deriving DecidableEq

/-- What can be at a location. -/
inductive Node where
  /-- A directory. -/
  | directory (info : DirectoryInfo)
  /-- A regular file with its bytes, its permission bits and the moment at which it was last
  written. -/
  | file (bytes : Bytes) (mode : Nat) (written : Nat)
  /-- A symbolic link with the path that it stands for. -/
  | link (target : Text)
  deriving DecidableEq

/-- Whether a node is a directory. -/
def Node.isDirectory : Node → Bool
  | .directory _ => true
  | _ => false

/-- The moment at which a node was last written; only files show one. -/
def Node.written : Node → Nat
  | .file _ _ written => written
  | _ => 0

/-- A tree of files, and the directory that relative paths begin at. -/
structure FileTree where
  /-- The locations other than the root that hold something. -/
  entries : List (Location × Node)
  /-- The working directory; none when it was removed. -/
  workingDirectory : Option Location
  /-- The root. -/
  root : DirectoryInfo := {}
  deriving DecidableEq

namespace FileTree

/-- What is at a location. -/
def node? (t : FileTree) (loc : Location) : Option Node :=
  if loc = [] then some (.directory t.root) else t.entries.lookup loc

/-- The tree without what is at a location itself. -/
def erase (t : FileTree) (loc : Location) : FileTree :=
  { t with entries := t.entries.filter fun e => e.1 ≠ loc }

/-- The tree with a node at a location, in place of what was there. -/
def put (t : FileTree) (loc : Location) (node : Node) : FileTree :=
  { t with entries := (t.erase loc).entries ++ [(loc, node)] }

/-- The last moment at which one of the entries was written. -/
def lastWritten : List (Location × Node) → Nat
  | [] => 0
  | e :: es => max e.2.written (lastWritten es)

/-- The moment of the next write, later than all that the tree shows. -/
def now (t : FileTree) : Nat := lastWritten t.entries + 1

/-- A filter by keys takes one key out of a look-up. -/
theorem lookup_filter_ne (es : List (Location × Node)) (a b : Location) :
    (es.filter fun e => !decide (e.1 = a)).lookup b = if b = a then none else es.lookup b := by
  induction es with
  | nil => simp
  | cons e es ih =>
    obtain ⟨k, v⟩ := e
    by_cases hk : k = a
    · subst hk
      by_cases hb : b = k
      · subst hb; simpa using ih
      · have hbk : (b == k) = false := by simpa using hb
        simpa [List.lookup_cons, hb, hbk] using ih
    · by_cases hb : b = k
      · subst hb; simp [hk]
      · have hbk : (b == k) = false := by simpa using hb
        simpa [List.lookup_cons, hk, hbk] using ih

/-- Erasing empties one location other than the root and changes no other. -/
theorem node?_erase (t : FileTree) (a b : Location) :
    (t.erase a).node? b = if b = a ∧ b ≠ [] then none else t.node? b := by
  by_cases hb : b = []
  · simp [node?, hb, erase]
  · simp [node?, hb, erase, lookup_filter_ne]

/-- Putting fills one location other than the root and changes no other. -/
theorem node?_put (t : FileTree) (a b : Location) (n : Node) :
    (t.put a n).node? b = if b = a ∧ b ≠ [] then some n else t.node? b := by
  by_cases hb : b = []
  · simp [node?, hb, put, erase]
  · by_cases hba : b = a
    · subst hba
      simp [node?, hb, put, erase, List.lookup_append, lookup_filter_ne]
    · have h : (b == a) = false := by simpa using hba
      simp [node?, hb, hba, put, erase, List.lookup_append, lookup_filter_ne, List.lookup_cons, h]

/-- What is at a location other than the root is listed. -/
theorem mem_entries {t : FileTree} {loc : Location} {node : Node} (h : t.node? loc = some node)
    (hne : loc ≠ []) : (loc, node) ∈ t.entries := by
  rw [node?, if_neg hne] at h
  obtain ⟨l₁, l₂, hl, -⟩ := List.lookup_eq_some_iff.1 h
  rw [hl]
  exact List.mem_append_right l₁ List.mem_cons_self

theorem written_le_lastWritten {entries : List (Location × Node)} :
    ∀ e ∈ entries, e.2.written ≤ lastWritten entries := by
  induction entries with
  | nil => simp
  | cons e entries ih =>
    intro e' he'
    rw [lastWritten]
    rcases List.mem_cons.1 he' with rfl | he'
    · exact Nat.le_max_left _ _
    · exact Nat.le_trans (ih e' he') (Nat.le_max_right _ _)

/-- What a tree shows was written before the moment of the next write. -/
theorem written_lt_now {t : FileTree} {loc : Location} {node : Node}
    (h : t.node? loc = some node) : node.written < t.now := by
  refine Nat.lt_succ_of_le ?_
  by_cases hroot : loc = []
  · subst hroot
    cases h
    exact Nat.zero_le _
  · exact written_le_lastWritten _ (mem_entries h hroot)

/-- Changing nodes leaves the working directory. -/
@[simp] theorem workingDirectory_put (t : FileTree) (a : Location) (n : Node) :
    (t.put a n).workingDirectory = t.workingDirectory := rfl

/-- Changing nodes leaves the working directory. -/
@[simp] theorem workingDirectory_erase (t : FileTree) (a : Location) :
    (t.erase a).workingDirectory = t.workingDirectory := rfl

/-- The path of a location. -/
def pathOf (loc : Location) : Text :=
  match loc with
  | [] => ['/']
  | names => names.flatMap ('/' :: ·)

end FileTree

end ClientPatch
