/-!
# Texts and byte offsets

A text is a list of characters, and a place in it is counted in bytes of its UTF-8 form.
`splitAt?` is the only way to a place: it answers exactly at character boundaries, and the
two parts it gives always make up the text again. Blanks are the characters of the
Unicode property White_Space, and trimming takes away whole runs of them.
-/

namespace ClientPatch

/-- A text is a list of characters. -/
abbrev Text := List Char

namespace Text

/-- The number of bytes of the UTF-8 form. -/
def size : Text → Nat
  | [] => 0
  | c :: t => c.utf8Size + size t

@[simp] theorem size_nil : size [] = 0 := rfl

@[simp] theorem size_cons (c : Char) (t : Text) : size (c :: t) = c.utf8Size + size t := rfl

@[simp] theorem size_append (a b : Text) : size (a ++ b) = size a + size b := by
  induction a with
  | nil => simp
  | cons c a ih => simp [ih, Nat.add_assoc]

/-- Only the empty text has no bytes. -/
theorem size_eq_zero_iff {t : Text} : size t = 0 ↔ t = [] := by
  cases t with
  | nil => simp
  | cons c t => simp [Nat.ne_of_gt (Char.utf8Size_pos c)]

/-- The parts before and after byte `n`; nothing when `n` is past the end or inside a
character. -/
def splitAt? : Nat → Text → Option (Text × Text)
  | 0, t => some ([], t)
  | _ + 1, [] => none
  | n + 1, c :: t =>
    if c.utf8Size ≤ n + 1 then
      (splitAt? (n + 1 - c.utf8Size) t).map fun p => (c :: p.1, p.2)
    else none

@[simp] theorem splitAt?_zero (t : Text) : splitAt? 0 t = some ([], t) := by
  cases t <;> rfl

/-- A split at byte `n` gives two parts of the text, the first of them `n` bytes long. -/
theorem append_of_splitAt? {n : Nat} {t a b : Text} (h : splitAt? n t = some (a, b)) :
    a ++ b = t ∧ size a = n := by
  fun_induction splitAt? n t generalizing a b with
  | case1 t => simp at h; obtain ⟨rfl, rfl⟩ := h; simp
  | case2 => simp at h
  | case3 n c t hc ih =>
    obtain ⟨⟨p, q⟩, hp, he⟩ := Option.map_eq_some_iff.1 h
    simp only [Prod.mk.injEq] at he
    obtain ⟨rfl, rfl⟩ := he
    obtain ⟨rfl, hs⟩ := ih hp
    exact ⟨rfl, by simp [hs]; omega⟩
  | case4 => simp at h

/-- Every seam between two parts of a text can be reached. -/
theorem splitAt?_size_append (a b : Text) : splitAt? (size a) (a ++ b) = some (a, b) := by
  induction a with
  | nil => simp
  | cons c a ih =>
    have hc := Char.utf8Size_pos c
    obtain ⟨m, hm⟩ : ∃ m, c.utf8Size + size a = m + 1 := ⟨c.utf8Size + size a - 1, by omega⟩
    rw [size_cons, hm, List.cons_append, splitAt?, if_pos (by omega),
      show m + 1 - c.utf8Size = size a by omega, ih]
    rfl

/-- Splitting answers exactly at the seams of the text. -/
theorem splitAt?_eq_some_iff {n : Nat} {t a b : Text} :
    splitAt? n t = some (a, b) ↔ a ++ b = t ∧ size a = n :=
  ⟨append_of_splitAt?, fun ⟨h, hn⟩ => by rw [← h, ← hn, splitAt?_size_append]⟩

/-- Of two divisions of a text, the earlier one divides the first part of the later one. -/
theorem append_split {a b c d : Text} (h : a ++ b = c ++ d) (hs : size a ≤ size c) :
    ∃ m, c = a ++ m ∧ b = m ++ d := by
  rcases List.append_eq_append_iff.1 h with ⟨m, hc, hb⟩ | ⟨m, ha, hd⟩
  · exact ⟨m, hc, hb⟩
  · have hm : m = [] := size_eq_zero_iff.1 (by rw [ha, size_append] at hs; omega)
    subst hm
    exact ⟨[], by simp [ha], by simpa using hd.symm⟩

/-- The parts before, inside and after the bytes from `start` to `stop`. -/
def cut? (start stop : Nat) (t : Text) : Option (Text × Text × Text) :=
  match splitAt? start t with
  | none => none
  | some (a, rest) =>
    match splitAt? (stop - start) rest with
    | none => none
    | some (m, z) => some (a, m, z)

/-- Cutting answers exactly when the span lies between two seams. -/
theorem cut?_eq_some_iff {start stop : Nat} {t a m z : Text} :
    cut? start stop t = some (a, m, z) ↔
      t = a ++ (m ++ z) ∧ size a = start ∧ size m = stop - start := by
  constructor
  · intro h
    unfold cut? at h
    split at h
    · cases h
    · rename_i a' rest h₁
      split at h
      · cases h
      · rename_i m' z' h₂
        obtain ⟨rfl, rfl, rfl⟩ : a' = a ∧ m' = m ∧ z' = z := by simpa using h
        obtain ⟨rfl, hm⟩ := splitAt?_eq_some_iff.1 h₂
        obtain ⟨rfl, ha⟩ := splitAt?_eq_some_iff.1 h₁
        exact ⟨rfl, ha, hm⟩
  · rintro ⟨rfl, ha, hm⟩
    rw [cut?, splitAt?_eq_some_iff.2 ⟨rfl, ha⟩]
    simp only [splitAt?_eq_some_iff.2 (⟨rfl, hm⟩ : m ++ z = m ++ z ∧ _)]

/-- What is left when the text begins with `p`. -/
def dropPrefix? : (p t : Text) → Option Text
  | [], t => some t
  | _ :: _, [] => none
  | a :: p, b :: t => if a = b then dropPrefix? p t else none

/-- A prefix can be dropped exactly when it is there. -/
theorem dropPrefix?_eq_some_iff {p t r : Text} : dropPrefix? p t = some r ↔ t = p ++ r := by
  fun_induction dropPrefix? p t with
  | case1 t => simp [eq_comm]
  | case2 => simp
  | case3 a p t ih => simp [ih]
  | case4 a p b t h => simp [Ne.symm h]

/-- Whether the text begins with `p`. -/
def hasPrefix (p t : Text) : Bool := (dropPrefix? p t).isSome

/-- The test for a prefix is exact. -/
theorem hasPrefix_iff {p t : Text} : hasPrefix p t ↔ p <+: t := by
  rw [hasPrefix, Option.isSome_iff_exists]
  exact exists_congr fun r => dropPrefix?_eq_some_iff.trans eq_comm

/-- Whether `p` occurs somewhere in the text. -/
def hasInfix (p : Text) : Text → Bool
  | [] => hasPrefix p []
  | c :: t => hasPrefix p (c :: t) || hasInfix p t

/-- The test for an occurrence is exact. -/
theorem hasInfix_iff {p t : Text} : hasInfix p t ↔ p <:+: t := by
  induction t with
  | nil => simp [hasInfix, hasPrefix_iff]
  | cons c t ih => simp [hasInfix, hasPrefix_iff, ih, List.infix_cons_iff]

/-- The characters with the Unicode property White_Space. -/
def isBlank (c : Char) : Bool :=
  let n := c.toNat
  (0x9 ≤ n && n ≤ 0xD) || n == 0x20 || n == 0x85 || n == 0xA0 || n == 0x1680 ||
    (0x2000 ≤ n && n ≤ 0x200A) || n == 0x2028 || n == 0x2029 || n == 0x202F ||
    n == 0x205F || n == 0x3000

/-- The text without the blanks at its start. -/
def trimStart (t : Text) : Text := t.dropWhile isBlank

/-- The text without the blanks at its end. -/
def trimEnd (t : Text) : Text := (t.reverse.dropWhile isBlank).reverse

/-- The text without the blanks at its two ends. -/
def trim (t : Text) : Text := trimEnd (trimStart t)

/-- Trimming the end leaves the start. -/
theorem trimEnd_isPrefix (t : Text) : trimEnd t <+: t := by
  rw [trimEnd, ← List.reverse_suffix, List.reverse_reverse]
  exact List.dropWhile_suffix isBlank

/-- Trimming takes away characters at the ends only. -/
theorem trim_isInfix (t : Text) : trim t <:+: t :=
  (trimEnd_isPrefix _).isInfix.trans (List.dropWhile_suffix isBlank).isInfix

/-- A trimmed text does not begin with a blank. -/
theorem isBlank_head?_trim {t : Text} {c : Char} (h : c ∈ (trim t).head?) :
    isBlank c = false := by
  obtain ⟨z, hz⟩ := trimEnd_isPrefix (trimStart t)
  have hc : (t.dropWhile isBlank).head? = some c := by
    rw [← trimStart, ← hz, List.head?_append, ← trim, h]
    rfl
  have hnot := List.head?_dropWhile_not isBlank t
  rw [hc] at hnot
  exact hnot

/-- Whether nothing but blanks is written. -/
def isBlankText (t : Text) : Bool := t.all isBlank

/-- The decimal digits of a number. -/
def ofNat (n : Nat) : Text := Nat.toDigits 10 n

/-- Texts one after another with `sep` between them. -/
def joinWith (sep : Text) : List Text → Text
  | [] => []
  | [t] => t
  | t :: ts => t ++ sep ++ joinWith sep ts

/-- The pieces between the occurrences of a character; one piece when there is none. -/
def splitOn (sep : Char) : Text → List Text
  | [] => [[]]
  | c :: t =>
    if c = sep then [] :: splitOn sep t
    else
      match splitOn sep t with
      | [] => [[c]]
      | p :: ps => (c :: p) :: ps

/-- There is always a first piece. -/
theorem splitOn_ne_nil (sep : Char) (t : Text) : splitOn sep t ≠ [] := by
  cases t with
  | nil => simp [splitOn]
  | cons c t =>
    rw [splitOn]
    split
    · simp
    · split <;> simp

end Text

end ClientPatch
