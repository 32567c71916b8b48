import ClientPatch.Toml.Document
import Mathlib.Tactic.SplitIfs

/-!
# A document gives no key twice

Whatever a line of a document adds, a table that is read keeps each of its keys once: a key is put
in only where it is not there yet, and all else changes what stands under a key. So a finished tree
can be read as a map from keys to values, at every depth.
-/

namespace ClientPatch.Toml

/-- No table of the value has a key twice. -/
inductive Value.KeysOnce : Value → Prop
  | text (t : Text) : KeysOnce (.text t)
  | boolean (b : Bool) : KeysOnce (.boolean b)
  | integer (n : Int) : KeysOnce (.integer n)
  | float (spelling : Text) : KeysOnce (.float spelling)
  | moment (spelling : Text) : KeysOnce (.moment spelling)
  | array {items : List Value} (h : ∀ v ∈ items, KeysOnce v) : KeysOnce (.array items)
  | table {entries : List (Text × Value)} (hkeys : (entries.map Prod.fst).Nodup)
      (h : ∀ e ∈ entries, KeysOnce e.2) : KeysOnce (.table entries)

theorem Value.KeysOnce.of_table {entries : List (Text × Value)}
    (h : (Value.table entries).KeysOnce) :
    (entries.map Prod.fst).Nodup ∧ ∀ e ∈ entries, e.2.KeysOnce := by
  cases h with
  | table hkeys h => exact ⟨hkeys, h⟩

/-- No table of the item has a key twice. -/
inductive Item.KeysOnce : Item → Prop
  | value {v : Value} (h : v.KeysOnce) : KeysOnce (.value v)
  | table {origin : TableOrigin} {entries : Entries} (hkeys : (entries.map Prod.fst).Nodup)
      (h : ∀ e ∈ entries, KeysOnce e.2) : KeysOnce (.table origin entries)
  | tables {elements : List Entries} (hkeys : ∀ es ∈ elements, (es.map Prod.fst).Nodup)
      (h : ∀ es ∈ elements, ∀ e ∈ es, KeysOnce e.2) : KeysOnce (.tables elements)

theorem finishEntries_eq_map (es : Entries) :
    finishEntries es = es.map fun e => (e.1, e.2.finish) := by
  induction es with
  | nil => rfl
  | cons e es ih => rw [finishEntries, List.map_cons, ih]

theorem finishElements_eq_map (elements : List Entries) :
    finishElements elements = elements.map fun es => .table (finishEntries es) := by
  induction elements with
  | nil => rfl
  | cons es elements ih => rw [finishElements, List.map_cons, ih]

theorem map_fst_finishEntries (es : Entries) :
    (finishEntries es).map Prod.fst = es.map Prod.fst := by
  rw [finishEntries_eq_map, List.map_map]
  rfl

/-- A table whose items are finished. -/
theorem Value.KeysOnce.finished {es : Entries} (hkeys : (es.map Prod.fst).Nodup)
    (h : ∀ e ∈ es, e.2.finish.KeysOnce) : (Value.table (finishEntries es)).KeysOnce := by
  refine .table ?_ ?_
  · rw [map_fst_finishEntries]
    exact hkeys
  · intro e he
    rw [finishEntries_eq_map] at he
    obtain ⟨e', he', rfl⟩ := List.mem_map.1 he
    exact h e' he'

theorem Item.KeysOnce.finish {item : Item} (h : item.KeysOnce) : item.finish.KeysOnce := by
  induction h with
  | value h =>
    rw [Item.finish]
    exact h
  | table hkeys _ ih =>
    rw [Item.finish]
    exact .finished hkeys ih
  | tables hkeys _ ih =>
    rw [Item.finish, finishElements_eq_map]
    refine .array fun v hv => ?_
    obtain ⟨es, hes, rfl⟩ := List.mem_map.1 hv
    exact .finished (hkeys es hes) (ih es hes)

namespace Entries

/-- The table has no key twice, and neither has a table in it. -/
structure KeysOnce (es : Entries) : Prop where
  /-- Its own keys differ. -/
  keys : (es.map Prod.fst).Nodup
  /-- Its items hold no other tables. -/
  items : ∀ e ∈ es, e.2.KeysOnce

variable {es es' : Entries} {key : Text} {item : Item} {origin : TableOrigin}

theorem keysOnce_nil : KeysOnce [] := ⟨List.nodup_nil, nofun⟩

theorem KeysOnce.table (h : es.KeysOnce) : (Item.table origin es).KeysOnce := .table h.keys h.items

theorem KeysOnce.of_table (h : (Item.table origin es).KeysOnce) : es.KeysOnce := by
  cases h with
  | table hkeys h => exact ⟨hkeys, h⟩

/-- A table behind others under a repeated header. -/
theorem KeysOnce.tables_concat {elements : List Entries} (h : ∀ es ∈ elements, es.KeysOnce)
    (hes : es.KeysOnce) : (Item.tables (elements ++ [es])).KeysOnce := by
  have hall : ∀ es' ∈ elements ++ [es], es'.KeysOnce := by
    intro es' hes'
    rcases List.mem_append.1 hes' with hes' | hes'
    · exact h es' hes'
    · obtain rfl := List.mem_singleton.1 hes'
      exact hes
  exact .tables (fun es' hes' => (hall es' hes').keys) fun es' hes' => (hall es' hes').items

theorem KeysOnce.of_tables {elements : List Entries} (h : (Item.tables elements).KeysOnce) :
    ∀ es ∈ elements, es.KeysOnce := by
  cases h with
  | tables hkeys h => exact fun es hes => ⟨hkeys es hes, h es hes⟩

theorem KeysOnce.finish (h : es.KeysOnce) : (Value.table (finishEntries es)).KeysOnce :=
  .finished h.keys fun e he => (h.items e he).finish

theorem KeysOnce.of_lookup (h : es.KeysOnce) (hitem : es.lookup key = some item) :
    item.KeysOnce := by
  obtain ⟨before, after, rfl, -⟩ := List.lookup_eq_some_iff.1 hitem
  exact h.items (key, item) (List.mem_append_right _ List.mem_cons_self)

/-- A key that is not there yet is put in. -/
theorem KeysOnce.push (h : es.KeysOnce) (hitem : item.KeysOnce) (hnew : es.lookup key = none) :
    (es.push key item).KeysOnce := by
  have hkey : key ∉ es.map Prod.fst := by
    intro hmem
    obtain ⟨e, he, rfl⟩ := List.mem_map.1 hmem
    have hne := List.lookup_eq_none_iff.1 hnew e he
    simp at hne
  constructor
  · rw [Entries.push, List.map_append, List.nodup_append]
    refine ⟨h.keys, List.nodup_cons.2 ⟨List.not_mem_nil, List.nodup_nil⟩, ?_⟩
    intro other hother new hnew heq
    rw [List.map_singleton, List.mem_singleton] at hnew
    rw [heq, hnew] at hother
    exact hkey hother
  · intro e he
    rcases List.mem_append.1 he with he | he
    · exact h.items e he
    · obtain rfl := List.mem_singleton.1 he
      exact hitem

/-- What stands under a key is changed. -/
theorem KeysOnce.set (h : es.KeysOnce) (hitem : item.KeysOnce) : (es.set key item).KeysOnce := by
  have hkeys : (es.set key item).map Prod.fst = es.map Prod.fst := by
    rw [Entries.set, List.map_map]
    refine List.map_congr_left fun e _ => ?_
    by_cases hkey : e.1 = key
    · simp [hkey]
    · simp [hkey]
  constructor
  · rw [hkeys]
    exact h.keys
  · intro e he
    obtain ⟨e', he', rfl⟩ := List.mem_map.1 he
    split
    · exact hitem
    · exact h.items e' he'

/-- The change makes no key stand twice. -/
def Keeps (change : Entries → Option Entries) : Prop :=
  ∀ es es', es.KeysOnce → change es = some es' → es'.KeysOnce

/-- A change of a table inside is a change of the whole. -/
theorem Keeps.within {change : Entries → Option Entries} (hchange : Keeps change)
    (keys : List Text) : Keeps (within change keys) := by
  induction keys with
  | nil =>
    intro es es' h hes
    exact hchange es es' h hes
  | cons key keys ih =>
    intro es es' h hes
    rw [Entries.within] at hes
    split at hes
    · rename_i hnew
      obtain ⟨sub, hsub, rfl⟩ := Option.map_eq_some_iff.1 hes
      exact h.push (ih [] sub keysOnce_nil hsub).table hnew
    · rename_i sub hitem
      obtain ⟨sub', hsub, rfl⟩ := Option.map_eq_some_iff.1 hes
      exact h.set (ih sub sub' (.of_table (h.of_lookup hitem)) hsub).table
    · rename_i elements hitem
      have helements := KeysOnce.of_tables (h.of_lookup hitem)
      split at hes
      · cases hes
      · rename_i sub hlast
        obtain ⟨sub', hsub, rfl⟩ := Option.map_eq_some_iff.1 hes
        have hsub' := ih sub sub' (helements sub (List.mem_of_getLast? hlast)) hsub
        exact h.set <|
          KeysOnce.tables_concat (fun es hes => helements es (List.dropLast_subset _ hes)) hsub'
    · cases hes

theorem keeps_announce (key : Text) : Keeps (announce key) := by
  intro es es' h hes
  rw [announce] at hes
  split at hes
  · rename_i hnew
    cases hes
    exact h.push keysOnce_nil.table hnew
  · rename_i sub hitem
    cases hes
    exact h.set (KeysOnce.of_table (h.of_lookup hitem)).table
  · cases hes

theorem keeps_announceElement (key : Text) : Keeps (announceElement key) := by
  intro es es' h hes
  rw [announceElement] at hes
  split at hes
  · rename_i hnew
    cases hes
    have hnone : ∀ es ∈ ([] : List Entries), es.KeysOnce := nofun
    exact h.push (KeysOnce.tables_concat hnone keysOnce_nil) hnew
  · rename_i elements hitem
    cases hes
    exact h.set (KeysOnce.tables_concat (KeysOnce.of_tables (h.of_lookup hitem)) keysOnce_nil)
  · cases hes

theorem keeps_assign {v : Value} (hv : v.KeysOnce) (last : Text) (path : List Text) :
    Keeps (assign v last path) := by
  induction path with
  | nil =>
    intro es es' h hes
    rw [assign] at hes
    split at hes
    · rename_i hnew
      cases hes
      exact h.push (.value hv) hnew
    · cases hes
  | cons key keys ih =>
    intro es es' h hes
    rw [assign] at hes
    split at hes
    · rename_i hnew
      obtain ⟨sub, hsub, rfl⟩ := Option.map_eq_some_iff.1 hes
      exact h.push (ih [] sub keysOnce_nil hsub).table hnew
    · rename_i sub hitem
      obtain ⟨sub', hsub, rfl⟩ := Option.map_eq_some_iff.1 hes
      exact h.set (ih sub sub' (.of_table (h.of_lookup hitem)) hsub).table
    · cases hes

/-- A change by way of a key, to the table of the key's last part. -/
theorem keeps_atKey {change : List Text → Text → Entries → Option Entries}
    (hchange : ∀ path last, Keeps (change path last)) (keys : List Text) :
    Keeps fun es => atKey keys fun path last => change path last es := by
  intro es es' h hes
  unfold atKey at hes
  split at hes
  · cases hes
  · exact hchange _ _ es es' h hes

end Entries

/-- What a reader of values reads has no key twice. -/
def ReadsOnce (value? : Text → Option (Value × Text)) : Prop :=
  ∀ t v rest, value? t = some (v, rest) → v.KeysOnce

theorem keysOnce_of_plainValue? {t : Text} {v : Value} (h : plainValue? t = some v) :
    v.KeysOnce := by
  unfold plainValue? at h
  cases hnumber : integer? t with
  | some n =>
    rw [hnumber] at h
    split_ifs at h <;> cases h <;> constructor
  | none =>
    rw [hnumber] at h
    split_ifs at h <;> cases h <;> constructor

theorem readsOnce_scalar? : ReadsOnce scalar? := by
  intro t v rest h
  unfold scalar? at h
  split at h
  · obtain ⟨p, -, hp⟩ := Option.map_eq_some_iff.1 h
    cases hp
    exact .text p.1
  · obtain ⟨p, -, hp⟩ := Option.map_eq_some_iff.1 h
    cases hp
    exact .text p.1
  · obtain ⟨v', hv', hp⟩ := Option.map_eq_some_iff.1 h
    cases hp
    exact keysOnce_of_plainValue? hv'

variable {item? : Text → Option (Value × Text)}

theorem keysOnce_of_items? (hitem : ReadsOnce item?) {fuel : Nat} {t rest : Text}
    {items : List Value} (h : items? item? fuel t = some (items, rest)) :
    ∀ v ∈ items, v.KeysOnce := by
  induction fuel generalizing t items rest with
  | zero => cases h
  | succ fuel ih =>
    rw [items?] at h
    split at h
    · cases h
    · cases h
      exact nofun
    · split at h
      · cases h
      · rename_i v t' hv
        have hfirst := hitem _ v t' hv
        split at h
        · obtain ⟨p, hp, hitems⟩ := Option.map_eq_some_iff.1 h
          cases hitems
          exact List.forall_mem_cons.2 ⟨hfirst, ih hp⟩
        · cases h
          exact List.forall_mem_singleton.2 hfirst
        · cases h

theorem keysOnce_of_assignment? (hitem : ReadsOnce item?) {es es' : Entries} {t rest : Text}
    (hes : es.KeysOnce) (h : assignment? item? es t = some (es', rest)) : es'.KeysOnce := by
  unfold assignment? at h
  split at h
  · split at h
    · cases h
    · rename_i v t' hv
      have hassign := Entries.keeps_assign (hitem _ v t' hv)
      obtain ⟨es'', hes'', hp⟩ := Option.map_eq_some_iff.1 h
      cases hp
      exact Entries.keeps_atKey (fun path last => hassign last path) _ es es' hes hes''
  · cases h

theorem keysOnce_of_assignments? (hitem : ReadsOnce item?) {fuel : Nat} {es es' : Entries}
    {t rest : Text} (hes : es.KeysOnce)
    (h : assignments? item? fuel es t = some (es', rest)) : es'.KeysOnce := by
  induction fuel generalizing es t with
  | zero => cases h
  | succ fuel ih =>
    rw [assignments?] at h
    split at h
    · cases h
    · cases h
      exact hes
    · split at h
      · cases h
      · rename_i es'' t' hassign
        have hes'' := keysOnce_of_assignment? hitem hes hassign
        split at h
        · exact ih hes'' h
        · cases h
          exact hes''
        · cases h

/-- Values nest: an array or an inline table holds what is read one level below. -/
theorem readsOnce_value? (depth : Nat) : ReadsOnce (value? depth) := by
  induction depth with
  | zero =>
    intro t v rest h
    unfold value? at h
    split at h
    · cases h
    · cases h
    · exact readsOnce_scalar? _ v rest h
  | succ depth ih =>
    intro t v rest h
    unfold value? at h
    split at h
    · obtain ⟨p, hp, hv⟩ := Option.map_eq_some_iff.1 h
      cases hv
      exact .array (keysOnce_of_items? ih hp)
    · obtain ⟨p, hp, hv⟩ := Option.map_eq_some_iff.1 h
      cases hv
      exact (keysOnce_of_assignments? ih Entries.keysOnce_nil hp).finish
    · exact readsOnce_scalar? _ v rest h

namespace Draft

variable {d d' : Draft} {t rest : Text}

theorem keysOnce_of_announce {announce : Text → Entries → Option Entries} {keys : List Text}
    (hannounce : ∀ key, Entries.Keeps (announce key)) (hd : d.entries.KeysOnce)
    (h : d.announce keys announce = some d') : d'.entries.KeysOnce := by
  unfold Draft.announce at h
  obtain ⟨es, hes, rfl⟩ := Option.map_eq_some_iff.1 h
  exact Entries.keeps_atKey (fun path last => (hannounce last).within path) keys _ es hd hes

theorem keysOnce_of_line? (hd : d.entries.KeysOnce) (h : line? d t = some (d', rest)) :
    d'.entries.KeysOnce := by
  unfold line? at h
  split at h
  · split at h
    · obtain ⟨d'', hd'', hp⟩ := Option.map_eq_some_iff.1 h
      cases hp
      exact keysOnce_of_announce Entries.keeps_announceElement hd hd''
    · cases h
  · split at h
    · obtain ⟨d'', hd'', hp⟩ := Option.map_eq_some_iff.1 h
      cases hp
      exact keysOnce_of_announce Entries.keeps_announce hd hd''
    · cases h
  · split at h
    · split at h
      · cases h
      · rename_i v t' hv
        have hassign := Entries.keeps_assign (readsOnce_value? maxDepth _ v t' hv)
        obtain ⟨es, hes, hp⟩ := Option.map_eq_some_iff.1 h
        cases hp
        exact (Entries.keeps_atKey (fun path last => hassign last path) _).within _ _ es hd hes
    · cases h

/-- From line to line no key comes to stand twice. -/
theorem keysOnce_of_lines? {fuel : Nat} (hd : d.entries.KeysOnce)
    (h : lines? fuel d t = some d') : d'.entries.KeysOnce := by
  induction fuel generalizing d t with
  | zero => cases h
  | succ fuel ih =>
    rw [lines?] at h
    split at h
    · cases h
      exact hd
    · split_ifs at h
      · obtain ⟨t', -, h⟩ := Option.bind_eq_some_iff.1 h
        exact ih hd h
      · split at h
        · cases h
        · rename_i d'' t' hline
          obtain ⟨t'', -, h⟩ := Option.bind_eq_some_iff.1 h
          exact ih (keysOnce_of_line? hd hline) h

end Draft

/-- The tree of a document has no key twice, at any depth. -/
theorem keysOnce_of_document? {t : Text} {tree : List (Text × Value)}
    (h : document? t = some tree) : (Value.table tree).KeysOnce := by
  unfold document? at h
  obtain ⟨d, hd, rfl⟩ := Option.map_eq_some_iff.1 h
  exact (Draft.keysOnce_of_lines? Entries.keysOnce_nil hd).finish

end ClientPatch.Toml
