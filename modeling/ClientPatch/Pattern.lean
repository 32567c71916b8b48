import ClientPatch.Text

/-!
# Patterns

At a place of a text a pattern matches in all the ways it can, the preferred way first: a repeated
class takes as many characters as it can, and what may be missing is taken where it leads on. A
search finds the leftmost place where there is a way and takes the first way there. The next search
begins behind that match, so matches never overlap.
-/

namespace ClientPatch

/-- A pattern of characters. -/
inductive Pattern where
  /-- These characters. -/
  | literal (characters : Text)
  /-- One character of a class. -/
  | oneOf (isIn : Char → Bool)
  /-- Characters of a class, as many as possible. -/
  | many (isIn : Char → Bool)
  /-- One pattern behind another. -/
  | andThen (first second : Pattern)
  /-- A pattern that may be missing. -/
  | optional (inner : Pattern)
  /-- A pattern whose characters are kept. -/
  | group (inner : Pattern)

/-- One way to match at a place. -/
structure PatternWay where
  /-- The characters that match. -/
  text : Text
  /-- Those of the group, behind those in front of it; none when the group is missing. -/
  group : Option (Text × Text)
  /-- The text behind. -/
  rest : Text
  deriving DecidableEq, Repr

namespace PatternWay

/-- One way to match behind another. -/
def append (a b : PatternWay) : PatternWay where
  text := a.text ++ b.text
  group :=
    match b.group with
    | some (front, kept) => some (a.text ++ front, kept)
    | none => a.group
  rest := b.rest

/-- The ways to match characters of a class, the longest first. -/
def runs (isIn : Char → Bool) : Text → List PatternWay
  | [] => [⟨[], none, []⟩]
  | c :: t =>
    if isIn c then
      (runs isIn t).map (fun a => { a with text := c :: a.text }) ++ [⟨[], none, c :: t⟩]
    else [⟨[], none, c :: t⟩]

end PatternWay

/-- A match by its place in a text. -/
structure PatternMatch where
  /-- The byte at which it begins. -/
  start : Nat
  /-- The byte behind it. -/
  stop : Nat
  /-- The byte behind the group, and the characters of the group. -/
  group : Option (Nat × Text)
  deriving DecidableEq, Repr

/-- The match that a way to match makes at a byte. -/
def PatternWay.matchAt (a : PatternWay) (start : Nat) : PatternMatch where
  start := start
  stop := start + a.text.size
  group := a.group.map fun (front, kept) => (start + front.size + kept.size, kept)

namespace Pattern

/-- The ways to match at the start of a text, the preferred one first. -/
def ways : Pattern → Text → List PatternWay
  | literal characters, t =>
    match Text.dropPrefix? characters t with
    | some rest => [⟨characters, none, rest⟩]
    | none => []
  | oneOf _, [] => []
  | oneOf isIn, c :: t => if isIn c then [⟨[c], none, t⟩] else []
  | many isIn, t => PatternWay.runs isIn t
  | andThen first second, t =>
    (first.ways t).flatMap fun a => (second.ways a.rest).map a.append
  | optional inner, t => inner.ways t ++ [⟨[], none, t⟩]
  | group inner, t => (inner.ways t).map fun a => { a with group := some ([], a.text) }

/-- What stands in front of the leftmost place with a way to match, and the first way there. -/
def find (p : Pattern) : Text → Option (Text × PatternWay)
  | [] => (p.ways []).head?.map ([], ·)
  | c :: t =>
    match (p.ways (c :: t)).head? with
    | some a => some ([], a)
    | none => (p.find t).map fun (front, a) => (c :: front, a)

/-- The matches in a text behind `offset` bytes, one search after another. -/
inductive Matches (p : Pattern) : (offset : Nat) → Text → List PatternMatch → Prop
  /-- Nothing is found any more. -/
  | finished {offset : Nat} {t : Text} (h : p.find t = none) : Matches p offset t []
  /-- The search goes on behind what was found. -/
  | found {offset : Nat} {t front : Text} {a : PatternWay} {ms : List PatternMatch}
      (h : p.find t = some (front, a))
      (hrest : Matches p (offset + front.size + a.text.size) a.rest ms) :
      Matches p offset t (a.matchAt (offset + front.size) :: ms)

/-- One search after another finds the same matches every time. -/
theorem Matches.unique {p : Pattern} {offset : Nat} {t : Text} {ms ns : List PatternMatch}
    (hms : p.Matches offset t ms) (hns : p.Matches offset t ns) : ms = ns := by
  induction hms generalizing ns with
  | finished h =>
    cases hns with
    | finished _ => rfl
    | found h' _ => cases h.symm.trans h'
  | found h _ ih =>
    cases hns with
    | finished h' => cases h.symm.trans h'
    | found h' hrest =>
      cases h.symm.trans h'
      rw [ih hrest]

section Ways

variable {t text rest : Text} {group : Option (Text × Text)} {isIn : Char → Bool}

theorem mem_ways_literal {characters : Text} :
    ⟨text, group, rest⟩ ∈ (literal characters).ways t ↔
      t = characters ++ rest ∧ text = characters ∧ group = none := by
  rw [ways]
  split
  · rename_i after h
    rw [List.mem_singleton, Text.dropPrefix?_eq_some_iff.1 h, List.append_cancel_left_eq,
      PatternWay.mk.injEq]
    exact ⟨fun ⟨htext, hgroup, hrest⟩ => ⟨hrest.symm, htext, hgroup⟩,
      fun ⟨hrest, htext, hgroup⟩ => ⟨htext, hgroup, hrest.symm⟩⟩
  · rename_i h
    refine iff_of_false List.not_mem_nil ?_
    rintro ⟨ht, -⟩
    rw [Text.dropPrefix?_eq_some_iff.2 ht] at h
    cases h

theorem mem_ways_oneOf :
    ⟨text, group, rest⟩ ∈ (oneOf isIn).ways t ↔
      ∃ c, isIn c = true ∧ t = c :: rest ∧ text = [c] ∧ group = none := by
  cases t with
  | nil => exact iff_of_false List.not_mem_nil fun ⟨_, _, ht, _⟩ => nomatch ht
  | cons c t =>
    rw [ways]
    split
    · rename_i hc
      rw [List.mem_singleton, PatternWay.mk.injEq]
      constructor
      · rintro ⟨rfl, rfl, rfl⟩
        exact ⟨c, hc, rfl, rfl, rfl⟩
      · rintro ⟨d, -, hd, rfl, rfl⟩
        cases hd
        exact ⟨rfl, rfl, rfl⟩
    · rename_i hc
      refine iff_of_false List.not_mem_nil ?_
      rintro ⟨d, hd, ht, -⟩
      cases ht
      exact hc hd

/-- A run in a class is a division of the text behind characters of the class. -/
theorem mem_ways_many :
    ⟨text, group, rest⟩ ∈ (many isIn).ways t ↔
      t = text ++ rest ∧ (∀ c ∈ text, isIn c = true) ∧ group = none := by
  rw [ways]
  induction t generalizing text with
  | nil =>
    rw [PatternWay.runs, List.mem_singleton, PatternWay.mk.injEq, List.nil_eq_append_iff]
    constructor
    · rintro ⟨rfl, rfl, rfl⟩
      exact ⟨⟨rfl, rfl⟩, by simp, rfl⟩
    · rintro ⟨⟨rfl, rfl⟩, -, rfl⟩
      exact ⟨rfl, rfl, rfl⟩
  | cons c t ih =>
    cases text with
    | nil =>
      have hempty : ⟨[], group, rest⟩ ∈ PatternWay.runs isIn (c :: t) ↔
          (⟨[], group, rest⟩ : PatternWay) = ⟨[], none, c :: t⟩ := by
        rw [PatternWay.runs]
        split <;> simp
      rw [hempty, PatternWay.mk.injEq]
      constructor
      · rintro ⟨-, rfl, rfl⟩
        exact ⟨rfl, by simp, rfl⟩
      · rintro ⟨rfl, -, rfl⟩
        exact ⟨rfl, rfl, rfl⟩
    | cons d text =>
      have hlonger : ⟨d :: text, group, rest⟩ ∈ PatternWay.runs isIn (c :: t) ↔
          isIn c = true ∧ c = d ∧ ⟨text, group, rest⟩ ∈ PatternWay.runs isIn t := by
        rw [PatternWay.runs]
        split
        · rename_i hc
          simp only [List.mem_append, List.mem_map, List.mem_singleton, PatternWay.mk.injEq,
            List.cons.injEq, reduceCtorEq, false_and, or_false, hc, true_and]
          constructor
          · rintro ⟨a, ha, ⟨rfl, rfl⟩, rfl, rfl⟩
            exact ⟨rfl, ha⟩
          · rintro ⟨rfl, ha⟩
            exact ⟨_, ha, ⟨rfl, rfl⟩, rfl, rfl⟩
        · rename_i hc
          simp [hc]
      rw [hlonger, ih]
      simp only [List.cons_append, List.cons.injEq, List.forall_mem_cons]
      constructor
      · rintro ⟨hc, rfl, ht, hall, hgroup⟩
        exact ⟨⟨rfl, ht⟩, ⟨hc, hall⟩, hgroup⟩
      · rintro ⟨⟨rfl, ht⟩, ⟨hc, hall⟩, hgroup⟩
        exact ⟨hc, rfl, ht, hall, hgroup⟩

theorem mem_ways_andThen {p q : Pattern} {x : PatternWay} :
    x ∈ (andThen p q).ways t ↔ ∃ a ∈ p.ways t, ∃ b ∈ q.ways a.rest, a.append b = x := by
  simp only [ways, List.mem_flatMap, List.mem_map]

theorem mem_ways_optional {p : Pattern} {x : PatternWay} :
    x ∈ (optional p).ways t ↔ x ∈ p.ways t ∨ x = ⟨[], none, t⟩ := by
  simp only [ways, List.mem_append, List.mem_singleton]

theorem mem_ways_group {p : Pattern} :
    ⟨text, group, rest⟩ ∈ (Pattern.group p).ways t ↔
      group = some ([], text) ∧ ∃ inner, ⟨text, inner, rest⟩ ∈ p.ways t := by
  simp only [ways, List.mem_map, PatternWay.mk.injEq]
  constructor
  · rintro ⟨a, ha, rfl, rfl, rfl⟩
    exact ⟨rfl, a.group, ha⟩
  · rintro ⟨rfl, inner, ha⟩
    exact ⟨_, ha, rfl, rfl, rfl⟩

end Ways

/-- Nothing is found where there is no way to match anywhere. -/
theorem find_eq_none {p : Pattern} {t : Text}
    (h : ∀ front u, t = front ++ u → p.ways u = []) : p.find t = none := by
  induction t with
  | nil => rw [find, h [] [] rfl]; rfl
  | cons c t ih =>
    have hrest := ih fun front u ht => h (c :: front) u (by rw [ht, List.cons_append])
    rw [find, h [] (c :: t) rfl, hrest]
    rfl

/-- The first way to match is found where there is none further left. -/
theorem find_append {p : Pattern} {front u : Text} {a : PatternWay}
    (h : (p.ways u).head? = some a)
    (hleft : ∀ x c y, front = x ++ c :: y → p.ways (c :: y ++ u) = []) :
    p.find (front ++ u) = some (front, a) := by
  induction front with
  | nil =>
    cases u with
    | nil => rw [List.nil_append, find, h]; rfl
    | cons c u => rw [List.nil_append, find, h]
  | cons c front ih =>
    have hrest := ih fun x d y hxy => hleft (c :: x) d y (by rw [hxy, List.cons_append])
    have hhere := hleft [] c front rfl
    rw [List.cons_append] at hhere ⊢
    rw [find, hhere, hrest]
    rfl

end Pattern

end ClientPatch
