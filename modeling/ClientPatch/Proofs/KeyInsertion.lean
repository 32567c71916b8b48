import ClientPatch.Proofs.CallScan
import ClientPatch.Proofs.EditWeave

/-!
# Putting a piece in at calls

The record rule puts one and the same piece in at the arguments of some calls. `Inserted` says
so by the parts of the text: each part ends with the characters of a call, and the piece comes
right after. From it follow the size of the result, the places of the calls in it, and that
taking the pieces out again restores the text.

An occurrence of the characters of a call in the result is followed by a piece, or it stands
in the text already: none arises at the seams of a piece, because the part before a seam ends
with a character that only ends a call, or with a blank. What follows an occurrence of the
text keeps its first characters up to the next call, so that a call with its key keeps it.
-/

namespace ClientPatch

/-- `Inserted piece k calls t out` says that a text which goes on with `t` at byte `k` goes on
with `out` once the piece is put in at the arguments of the calls. -/
inductive Inserted (piece : Text) : Nat → List RecordCall → Text → Text → Prop
  | nil {k : Nat} {t : Text} : Inserted piece k [] t t
  | cons {k : Nat} {a t out : Text} {c : RecordCall} {calls : List RecordCall}
      (hoffset : c.offset = k + a.size) (hargs : c.argsStart = c.offset + recordToken.size)
      (h : Inserted piece c.argsStart calls t out) :
      Inserted piece k (c :: calls) (a ++ (recordToken ++ t))
        (a ++ (recordToken ++ (piece ++ out)))

/-- The edit that takes the piece of a call out of the result again, where `i` calls before it
have theirs. -/
def removal (piece : Text) (i : Nat) (c : RecordCall) : Edit :=
  ⟨⟨c.argsStart + i * piece.size, c.argsStart + (i + 1) * piece.size⟩, [], piece⟩

/-- The call is an occurrence of its characters in a text that goes on with `t` at byte `k`. -/
def RecordCall.StandsIn (c : RecordCall) (k : Nat) (t : Text) : Prop :=
  ∃ a b, t = a ++ (recordToken ++ b) ∧ c.offset = k + a.size ∧
    c.argsStart = c.offset + recordToken.size

namespace Inserted

variable {piece t out : Text} {k : Nat} {calls : List RecordCall}

/-- A piece can be put in at any calls of the text that come one after another. -/
theorem exists_of_calls (piece : Text) (hcalls : ∀ c ∈ calls, c.StandsIn k t)
    (hp : calls.Pairwise fun a b => a.argsStart ≤ b.offset) :
    ∃ out, Inserted piece k calls t out := by
  induction calls generalizing k t with
  | nil => exact ⟨t, nil⟩
  | cons c calls ih =>
    obtain ⟨hc, hp⟩ := List.pairwise_cons.1 hp
    obtain ⟨a, b, ht, hoffset, hargs⟩ := hcalls c List.mem_cons_self
    have hrest : ∀ d ∈ calls, d.StandsIn c.argsStart b := by
      intro d hd
      obtain ⟨a', b', ht', hoffset', hargs'⟩ := hcalls d (List.mem_cons_of_mem c hd)
      have hle := hc d hd
      have heq : (a ++ recordToken) ++ b = a' ++ (recordToken ++ b') := by
        rw [List.append_assoc, ← ht, ht']
      obtain ⟨m, ha', hb⟩ := Text.append_split heq (by rw [Text.size_append]; omega)
      refine ⟨m, b', hb, ?_, hargs'⟩
      rw [hoffset', ha', hargs, hoffset]
      simp only [Text.size_append]
      omega
    obtain ⟨out, hout⟩ := ih hrest hp
    exact ⟨a ++ (recordToken ++ (piece ++ out)), ht ▸ cons hoffset hargs hout⟩

/-- The arguments of the calls lie beyond the place that the text goes on from. -/
theorem lt_argsStart (h : Inserted piece k calls t out) : ∀ c ∈ calls, k < c.argsStart := by
  induction h with
  | nil => simp
  | @cons k a t out c calls hoffset hargs h ih =>
    have hc : k < c.argsStart := by
      rw [size_recordToken] at hargs
      omega
    intro d hd
    rcases List.mem_cons.1 hd with rfl | hd
    · exact hc
    · exact Nat.lt_trans hc (ih d hd)

/-- Putting in is making one insertion for every call. -/
theorem woven (h : Inserted piece k calls t out) :
    Edit.Woven k t (calls.map fun c => Edit.insert c.argsStart piece) out := by
  induction h with
  | nil => exact .nil
  | @cons k a t out c calls hoffset hargs h ih =>
    have hsize : c.argsStart = k + (a ++ recordToken).size := by
      rw [hargs, hoffset, Text.size_append, Nat.add_assoc]
    have hw := Edit.Woven.cons_insert piece hsize ih
    simpa only [List.map_cons, List.append_assoc] using hw

/-- No two insertions are made at one place. -/
theorem pairwise_apart (h : Inserted piece k calls t out) :
    (calls.map fun c => Edit.insert c.argsStart piece).Pairwise
      fun a b => ¬Edit.SamePoint a b := by
  have hlt : calls.Pairwise fun a b => a.argsStart < b.argsStart := by
    induction h with
    | nil => exact .nil
    | cons _ _ h ih => exact List.pairwise_cons.2 ⟨h.lt_argsStart, ih⟩
  refine List.pairwise_map.2 (hlt.imp fun {a b} hab hsame => ?_)
  exact Nat.ne_of_lt hab hsame.2.2

/-- What stands before the arguments of all calls stays where it is. -/
theorem exists_append {p : Text} (h : Inserted piece 0 calls (p ++ t) out)
    (hp : ∀ c ∈ calls, p.size ≤ c.argsStart) : ∃ tail, out = p ++ tail := by
  obtain ⟨tail, hout, -⟩ := h.woven.drop_kept fun e he => by
    obtain ⟨c, hc, rfl⟩ := List.mem_map.1 he
    rw [Nat.zero_add]
    exact hp c hc
  exact ⟨tail, hout⟩

/-- Taking the pieces out again restores the text. -/
theorem woven_removal (h : Inserted piece k calls t out) (j : Nat) :
    Edit.Woven (k + j * piece.size) out (calls.mapIdx fun i => removal piece (i + j)) t := by
  induction h generalizing j with
  | nil => exact .nil
  | @cons k a t out c calls hoffset hargs h ih =>
    have hstop : (removal piece j c).stop = c.argsStart + (j + 1) * piece.size := rfl
    have hrest := ih (j + 1)
    rw [← hstop] at hrest
    have hw : Edit.Woven (k + j * piece.size) ((a ++ recordToken) ++ (piece ++ out))
        (removal piece j c :: calls.mapIdx fun i => removal piece (i + (j + 1)))
        ((a ++ recordToken) ++ ([] ++ t)) := by
      refine .cons ?_ ?_ hrest
      · rw [Text.size_append]
        change c.argsStart + j * piece.size = _
        omega
      · change c.argsStart + (j + 1) * piece.size = c.argsStart + j * piece.size + piece.size
        rw [Nat.add_mul, Nat.one_mul, Nat.add_assoc]
    rw [List.mapIdx_cons, Nat.zero_add]
    simpa only [List.nil_append, List.append_assoc, Nat.add_assoc, Nat.add_comm 1 j] using hw

/-- Every call brings one more piece. -/
theorem size_out (h : Inserted piece k calls t out) :
    out.size = t.size + calls.length * piece.size := by
  induction h with
  | nil => simp
  | @cons k a t out c calls hoffset hargs h ih =>
    simp only [Text.size_append, ih, List.length_cons, Nat.add_mul, Nat.one_mul]
    omega

/-- The calls stand in the result with their piece, each moved by the pieces before it. -/
theorem exists_call_at (h : Inserted piece k calls t out) (i : Nat) (hi : i < calls.length) :
    ∃ x y, out = x ++ (recordToken ++ (piece ++ y)) ∧
      k + x.size = calls[i].offset + i * piece.size := by
  induction h generalizing i with
  | nil => exact absurd hi (Nat.not_lt_zero i)
  | @cons k a t out c calls hoffset hargs h ih =>
    cases i with
    | zero => exact ⟨a, out, rfl, by simp [hoffset]⟩
    | succ i =>
      obtain ⟨x, y, hout, hx⟩ := ih i (by simpa using hi)
      refine ⟨a ++ (recordToken ++ (piece ++ x)), y, by simp [hout], ?_⟩
      simp only [Text.size_append, List.getElem_cons_succ, Nat.add_mul, Nat.one_mul]
      omega

/-- A beginning of the text that holds no call stays the beginning of the result. -/
theorem isPrefix_of_free (h : Inserted piece k calls t out) {w : Text} (hw : w <+: t)
    (hfree : ¬recordToken <:+: w) : w <+: out := by
  cases h with
  | nil => exact hw
  | @cons k a t out c calls hoffset hargs h =>
    have hseam : a ++ recordToken <+: a ++ (recordToken ++ t) :=
      ⟨t, List.append_assoc a recordToken t⟩
    rcases List.prefix_or_prefix_of_prefix hw hseam with hle | hle
    · exact hle.trans ⟨piece ++ out, List.append_assoc a recordToken _⟩
    · exact absurd ((List.suffix_append a recordToken).isInfix.trans hle.isInfix) hfree

/-- An occurrence of a call in the result is one that was given its piece, or one of the text
whose calls before it have theirs and whose calls after it still get theirs. -/
theorem call_origin (h : Inserted piece k calls t out) (hfree : ¬recordToken <:+: piece)
    (hends : EndsCall piece) {p q : Text} (hout : out = p ++ (recordToken ++ q)) :
    (∃ z, q = piece ++ z) ∨
      ∃ p₀ q₀ calls₁ calls₂, calls = calls₁ ++ calls₂ ∧ t = p₀ ++ (recordToken ++ q₀) ∧
        Inserted piece (k + p₀.size + recordToken.size) calls₂ q₀ q ∧
        (∀ c ∈ calls₁, c.argsStart < k + p₀.size + recordToken.size) ∧
        (calls₁ = [] → p₀ = p) := by
  induction h generalizing p with
  | @nil k t => exact Or.inr ⟨p, q, [], [], rfl, hout, nil, by simp, fun _ => rfl⟩
  | @cons k a t out c calls hoffset hargs h ih =>
    have hseam : (a ++ recordToken) ++ (piece ++ out) = p ++ (recordToken ++ q) := by
      rw [← hout, List.append_assoc]
    rcases call_in_append (endsCall_token a) hseam with ⟨m, ha, hq⟩ | ⟨m, hp, hrest⟩
    · by_cases hm : m = []
      · exact Or.inl ⟨out, by rw [hq, hm, List.nil_append]⟩
      · obtain ⟨m, rfl, rfl⟩ := call_before_token ha hm
        refine Or.inr ⟨p, m ++ (recordToken ++ t), [], c :: calls, rfl, ?_, ?_, by simp,
          fun _ => rfl⟩
        · simp only [List.append_assoc]
        · rw [hq, List.append_assoc]
          refine cons ?_ hargs h
          rw [hoffset]
          simp only [Text.size_append]
          omega
    · rcases call_in_append hends hrest with ⟨m', hpiece, -⟩ | ⟨m', hm, hout'⟩
      · exact absurd ⟨m, m', by rw [hpiece, List.append_assoc]⟩ hfree
      · rcases ih hout' with hz | ⟨p₀, q₀, calls₁, calls₂, hcalls, ht, hins, hlt, -⟩
        · exact Or.inl hz
        · have hsize : c.argsStart + p₀.size + recordToken.size =
              k + (a ++ (recordToken ++ p₀)).size + recordToken.size := by
            simp only [Text.size_append]
            omega
          refine Or.inr ⟨a ++ (recordToken ++ p₀), q₀, c :: calls₁, calls₂, by rw [hcalls]; rfl,
            by simp [ht], hsize ▸ hins, ?_, by simp⟩
          rintro d hd
          rw [← hsize]
          rcases List.mem_cons.1 hd with rfl | hd
          · rw [size_recordToken]
            omega
          · exact hlt d hd

end Inserted

/-- What the rule for a key type puts in front of arguments is a key for them. -/
theorem isKeyed_insertion (keyType z : Text) :
    IsKeyed keyType ((keyType ++ [',', ' ']) ++ z) :=
  ⟨[], [], ' ' :: z, by simp, by simp, by simp⟩

/-- The test for the key accepts exactly the grammar, for every key type that does not begin with a
blank and for no other. The key type of a rule is the given text without the blanks at its ends, so
that for a rule the test is the grammar alone, and what the rule puts in front of arguments is
always recognized. -/
theorem hasKey_exact :
    (∀ keyType arguments : Text, hasKey keyType arguments = true ↔
      (∀ c ∈ keyType.head?, Text.isBlank c = false) ∧ IsKeyed keyType arguments) ∧
    ∀ key : Text, (RecordKey.ofText key).keyType.IsTrimOf key ∧
      (∀ arguments, hasKey (RecordKey.ofText key).keyType arguments = true ↔
        IsKeyed (RecordKey.ofText key).keyType arguments) ∧
      ∀ rest, hasKey (RecordKey.ofText key).keyType
        ((RecordKey.ofText key).keyType ++ ([',', ' '] ++ rest)) = true := by
  refine ⟨fun _ _ => hasKey_iff, fun key => ⟨key.isTrimOf_trim, fun _ => hasKey_trim_iff, ?_⟩⟩
  intro rest
  have hkeyed := isKeyed_insertion (Text.trim key) rest
  rw [List.append_assoc] at hkeyed
  exact hasKey_trim_iff.2 hkeyed

/-- A key type with a blank and a comma of its own, between blanks of different sizes, and one that
begins with a blank. -/
example : hasKey ['k', ',', ' ', 'k'] "\u3000k, k\u00A0\n,é".toList = true ∧
    hasKey [' ', 'k'] " k,".toList = false := by decide

/-- Nothing of what the rule puts in shows in a scan, unless in the key type. -/
theorem isInert_insertion {keyType : Text} (hfree : ¬recordToken <:+: keyType) :
    IsInert (keyType ++ [',', ' ']) where
  free := by rwa [token_infix_append_iff (by simp [recordToken])]
  ends := by
    intro c hc
    rw [List.getLast?_append] at hc
    obtain rfl : ' ' = c := Option.some.inj hc
    decide
  name := by
    rw [show keyType ++ [',', ' '] = (keyType ++ [',']) ++ [' '] by simp]
    exact foldl_extendName_concat (by decide) (keyType ++ [',']) []

/-- A key stays where it is when pieces are put in behind it: no call stands within it, unless
in the key type. -/
theorem IsKeyed.inserted {piece keyType t out : Text} {k : Nat} {calls : List RecordCall}
    (hkeyed : IsKeyed keyType t) (hfree : ¬recordToken <:+: keyType)
    (h : Inserted piece k calls t out) : IsKeyed keyType out := by
  obtain ⟨w₁, w₂, rest, rfl, hb₁, hb₂⟩ := hkeyed
  have hcomma : ∀ c ∈ w₂ ++ [','], c ∉ recordToken := by
    intro c hc
    rcases List.mem_append.1 hc with hc | hc
    · exact notMem_token_of_isBlank (hb₂ c hc)
    · obtain rfl := List.mem_singleton.1 hc
      decide
  have hwindow : ¬recordToken <:+: w₁ ++ (keyType ++ (w₂ ++ [','])) := by
    rwa [token_infix_append_left_iff fun c hc => notMem_token_of_isBlank (hb₁ c hc),
      token_infix_append_iff hcomma]
  obtain ⟨z, hz⟩ := h.isPrefix_of_free ⟨rest, by simp⟩ hwindow
  exact ⟨w₁, w₂, z, by simp [← hz], hb₁, hb₂⟩

/-- Once every call beyond `limit` without the key has been given it, every call beyond `limit`
has it: the key type holds no call, so none arises and none loses its key. -/
theorem Inserted.covered {keyType t out : Text} {limit : Nat} {calls : List RecordCall}
    (h : Inserted (keyType ++ [',', ' ']) 0 calls t out) (hfree : ¬recordToken <:+: keyType)
    (hlimit : ∀ c ∈ calls, limit < c.argsStart)
    (hcalls : ∀ p q, t = p ++ (recordToken ++ q) → limit < p.size + recordToken.size →
      IsKeyed keyType q ∨ RecordCall.after p ∈ calls) :
    ∀ p q, out = p ++ (recordToken ++ q) → limit < p.size + recordToken.size →
      IsKeyed keyType q := by
  intro p q hout hp
  have hpiece := isInert_insertion hfree
  rcases h.call_origin hpiece.free hpiece.ends hout with
    ⟨z, rfl⟩ | ⟨p₀, q₀, calls₁, calls₂, rfl, ht, hins, hlt, hnil⟩
  · exact isKeyed_insertion keyType z
  · rw [Nat.zero_add] at hins hlt
    have hbeyond : limit < p₀.size + recordToken.size := by
      cases calls₁ with
      | nil => rwa [hnil rfl]
      | cons c calls₁ =>
        exact Nat.lt_trans (hlimit c (by simp)) (hlt c List.mem_cons_self)
    rcases hcalls p₀ q₀ ht hbeyond with hkeyed | hmem
    · exact hkeyed.inserted hfree hins
    · -- The call itself is on the list, but its place lies between the two parts of the list.
      rcases List.mem_append.1 hmem with hmem | hmem
      · exact absurd (hlt _ hmem) (Nat.lt_irrefl _)
      · exact absurd (hins.lt_argsStart _ hmem) (Nat.lt_irrefl _)

end ClientPatch
