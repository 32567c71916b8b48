import ClientPatch.Proofs.ConfigFaults
import ClientPatch.Proofs.ConfigSections
import ClientPatch.Proofs.DocumentKeys
import Mathlib

/-!
# A configuration is the default one, overridden field by field

What a document describes is settled by which value it gives for which field. A field for which it
gives none has its default, whether its section is left out or only the field; the order of the
sections and keys does not matter. A key that is not known, or a value of the wrong type, leaves
nothing to validate.
-/

namespace ClientPatch

open Toml (Value)

namespace Config

variable {tree tree' : List (Text × Value)} {c : Config}

/-- Every section is known and is a table, every key in it is known, and every value is of the type
of its field. -/
def Fits (tree : List (Text × Value)) : Prop :=
  ∀ e ∈ tree, ∃ sec : ConfigSection, sec.name = e.1 ∧ ∃ entries, e.2 = .table entries ∧
    ∀ e' ∈ entries, ∃ setting : ConfigSetting,
      setting.home = sec ∧ setting.key = e'.1 ∧ setting.Accepts e'.2

/-- The document gives the field the value. -/
def Gives (tree : List (Text × Value)) (setting : ConfigSetting) (v : Value) : Prop :=
  ∃ entries, (setting.home.name, .table entries) ∈ tree ∧ (setting.key, v) ∈ entries

/-- The configuration is the default one but for the fields that the document gives. -/
structure Overrides (tree : List (Text × Value)) (c : Config) : Prop where
  /-- What is given is as it is given. -/
  given : ∀ setting v, Gives tree setting v → c.setting? setting = some v
  /-- What is not given has its default. -/
  others : ∀ setting, (∀ v, ¬Gives tree setting v) →
    c.setting? setting = ({} : Config).setting? setting

/-- No section is an array, which would give its fields by their places. -/
def ByKeys (tree : List (Text × Value)) : Prop :=
  ∀ (sec : ConfigSection) (items : List Value), (sec.name, .array items) ∉ tree

/-- What a section can be read from, if it is no array. -/
theorem exists_read_iff {sec : ConfigSection} {v : Value} (harray : ∀ items, v ≠ .array items) :
    (∃ s, sec.shape.read v = some s) ↔ ∃ entries, v = .table entries ∧
      ∀ e' ∈ entries, ∃ setting : ConfigSetting,
        setting.home = sec ∧ setting.key = e'.1 ∧ setting.Accepts e'.2 := by
  cases v with
  | array items => exact absurd rfl (harray items)
  | table entries =>
    have hset : ∀ key v s, (∃ s', sec.shape.set key v s = some s') ↔
        ∃ setting : ConfigSetting, setting.home = sec ∧ setting.key = key ∧ setting.Accepts v := by
      intro key v s
      constructor
      · rintro ⟨s', h⟩
        exact ConfigSetting.exists_of_set h
      · rintro ⟨setting, rfl, rfl, h⟩
        exact setting.exists_set h s
    rw [SectionShape.read, SectionShape.exists_override_iff hset]
    simp
  | _ => simp [SectionShape.read]

/-- A document describes a configuration exactly when all that it says is known and of the right
type. -/
theorem exists_ofTree_iff (hbyKeys : ByKeys tree) : (∃ c, ofTree tree = some c) ↔ Fits tree := by
  have hset : ∀ key v c, (∃ c', configShape.set key v c = some c') ↔
      ∃ sec : ConfigSection, sec.name = key ∧ ∃ s, sec.shape.read v = some s := by
    intro key v c
    constructor
    · rintro ⟨c', h⟩
      obtain ⟨sec, hname, s, hs, -⟩ := ConfigSection.set_configShape_iff.1 h
      exact ⟨sec, hname, s, hs⟩
    · rintro ⟨sec, hname, s, hs⟩
      exact ⟨_, ConfigSection.set_configShape_iff.2 ⟨sec, hname, s, hs, rfl⟩⟩
  rw [ofTree, SectionShape.exists_override_iff hset, Fits]
  refine forall₂_congr fun e he => exists_congr fun sec => and_congr_right fun hname => ?_
  refine exists_read_iff fun items hitems => hbyKeys sec items ?_
  rw [hname, ← hitems]
  exact he

/-- What a document describes is the default configuration but for the fields that it gives. -/
theorem overrides_of_ofTree (hkeys : (Value.table tree).KeysOnce) (hbyKeys : ByKeys tree)
    (h : ofTree tree = some c) : Overrides tree c := by
  obtain ⟨hnodup, hinner⟩ := hkeys.of_table
  have hsection : ∀ sec entries, (ConfigSection.name sec, .table entries) ∈ tree →
      sec.shape.override entries sec.shape.bare = some (sec.part c) :=
    fun sec entries hmem => sec.owns.override_of_mem hnodup hmem h
  constructor
  · rintro setting v ⟨entries, htable, hv⟩
    exact setting.owns.override_of_mem (hinner _ htable).of_table.1 hv
      (hsection setting.home entries htable)
  · intro setting hnot
    have hbare : setting.value? setting.home.shape.bare = ({} : Config).setting? setting := by
      rw [setting.home.bare_shape]
      rfl
    by_cases hname : ∃ v, (setting.home.name, v) ∈ tree
    · -- The section is there, but not the field.
      obtain ⟨v, hv⟩ := hname
      obtain ⟨sec, hsec, entries, rfl, -⟩ := (exists_ofTree_iff hbyKeys).1 ⟨c, h⟩ _ hv
      have hnone : ∀ v, (setting.key, v) ∉ entries := fun v hmem => hnot v ⟨entries, hv, hmem⟩
      rw [setting?, setting.owns.override_of_notMem hnone (hsection _ entries hv), hbare]
    · -- The section is left out.
      have hnone : ∀ v, (setting.home.name, v) ∉ tree := fun v hv => hname ⟨v, hv⟩
      rw [setting?, setting.home.owns.override_of_notMem hnone h]
      rfl

/-- There is only one such configuration. -/
theorem Overrides.unique {c' : Config} (h : Overrides tree c) (h' : Overrides tree c') :
    c = c' := by
  refine ext_setting fun setting => ?_
  by_cases hgiven : ∃ v, Gives tree setting v
  · obtain ⟨v, hv⟩ := hgiven
    rw [h.given setting v hv, h'.given setting v hv]
  · have hnot : ∀ v, ¬Gives tree setting v := fun v hv => hgiven ⟨v, hv⟩
    rw [h.others setting hnot, h'.others setting hnot]

theorem ofTree_eq_some_iff (hkeys : (Value.table tree).KeysOnce) (hbyKeys : ByKeys tree) :
    ofTree tree = some c ↔ Fits tree ∧ Overrides tree c := by
  constructor
  · intro h
    exact ⟨(exists_ofTree_iff hbyKeys).1 ⟨c, h⟩, overrides_of_ofTree hkeys hbyKeys h⟩
  · rintro ⟨hfits, hover⟩
    obtain ⟨c', h⟩ := (exists_ofTree_iff hbyKeys).2 hfits
    rw [h, hover.unique (overrides_of_ofTree hkeys hbyKeys h)]

/-- Two entries say the same, maybe with the keys of their table in another order. -/
inductive SameEntry : Text × Value → Text × Value → Prop
  | refl (e : Text × Value) : SameEntry e e
  | table {name : Text} {entries entries' : List (Text × Value)} (h : entries.Perm entries') :
      SameEntry (name, .table entries) (name, .table entries')

/-- Two documents say the same, maybe with their sections, and the keys in these, in another
order. -/
def Reordered (tree tree' : List (Text × Value)) : Prop :=
  ∃ mid, tree.Perm mid ∧ List.Forall₂ SameEntry mid tree'

variable {e e' : Text × Value}

theorem SameEntry.symm (h : SameEntry e e') : SameEntry e' e := by
  cases h with
  | refl => exact .refl e
  | table h => exact .table h.symm

theorem SameEntry.fst_eq (h : SameEntry e e') : e.1 = e'.1 := by
  cases h <;> rfl

theorem SameEntry.keysOnce (h : SameEntry e e') (hkeys : e.2.KeysOnce) : e'.2.KeysOnce := by
  cases h with
  | refl => exact hkeys
  | table h =>
    obtain ⟨hnodup, hinner⟩ := hkeys.of_table
    exact .table ((h.map Prod.fst).nodup_iff.1 hnodup) fun e he => hinner e (h.mem_iff.2 he)

/-- Every entry of the one document has its like in the other. -/
def Mirrors (tree tree' : List (Text × Value)) : Prop := ∀ e ∈ tree, ∃ e' ∈ tree', SameEntry e e'

theorem Mirrors.gives {setting : ConfigSetting} {v : Value} (h : Mirrors tree tree')
    (hgives : Gives tree setting v) : Gives tree' setting v := by
  obtain ⟨entries, htable, hv⟩ := hgives
  obtain ⟨e', he', hsame⟩ := h _ htable
  cases hsame with
  | refl => exact ⟨entries, he', hv⟩
  | table hperm => exact ⟨_, he', hperm.mem_iff.1 hv⟩

theorem Mirrors.fits (h : Mirrors tree tree') (hfits : Fits tree') : Fits tree := by
  intro e he
  obtain ⟨e', he', hsame⟩ := h e he
  obtain ⟨sec, hname, entries', hentries', hinner⟩ := hfits e' he'
  refine ⟨sec, hname.trans hsame.fst_eq.symm, ?_⟩
  cases hsame with
  | refl => exact ⟨entries', hentries', hinner⟩
  | table hperm =>
    cases hentries'
    exact ⟨_, rfl, fun e he => hinner e (hperm.mem_iff.1 he)⟩

theorem Mirrors.byKeys (h : Mirrors tree tree') (hbyKeys : ByKeys tree') : ByKeys tree := by
  intro sec items hmem
  obtain ⟨e', he', hsame⟩ := h _ hmem
  cases hsame
  exact hbyKeys sec items he'

theorem mirrors_of_forall₂ (h : List.Forall₂ SameEntry tree tree') : Mirrors tree tree' := by
  induction h with
  | nil => exact nofun
  | cons hsame _ ih =>
    intro e he
    rcases List.mem_cons.1 he with rfl | he
    · exact ⟨_, List.mem_cons_self, hsame⟩
    · obtain ⟨e', he', hsame'⟩ := ih e he
      exact ⟨e', List.mem_cons_of_mem _ he', hsame'⟩

theorem Reordered.mirrors (h : Reordered tree tree') : Mirrors tree tree' := by
  obtain ⟨mid, hperm, hsame⟩ := h
  intro e he
  exact mirrors_of_forall₂ hsame e (hperm.mem_iff.1 he)

theorem Reordered.mirrored (h : Reordered tree tree') : Mirrors tree' tree := by
  obtain ⟨mid, hperm, hsame⟩ := h
  intro e he
  obtain ⟨e', he', hsame'⟩ := mirrors_of_forall₂ (hsame.flip.imp fun _ _ h => h.symm) e he
  exact ⟨e', hperm.mem_iff.2 he', hsame'⟩

theorem Reordered.keysOnce (h : Reordered tree tree') (hkeys : (Value.table tree).KeysOnce) :
    (Value.table tree').KeysOnce := by
  obtain ⟨hnodup, hinner⟩ := hkeys.of_table
  refine .table ?_ fun e' he' => ?_
  · obtain ⟨mid, hperm, hsame⟩ := h
    have hnames : mid.map Prod.fst = tree'.map Prod.fst := by
      rw [← List.forall₂_eq_eq_eq, List.forall₂_map_left_iff, List.forall₂_map_right_iff]
      exact hsame.imp fun _ _ h => h.fst_eq
    rw [← hnames]
    exact (hperm.map Prod.fst).nodup_iff.1 hnodup
  · obtain ⟨e, he, hsame⟩ := h.mirrored e' he'
    exact hsame.symm.keysOnce (hinner e he)

/-- The order of the sections, and of the keys in a section, does not matter. -/
theorem ofTree_reordered (hkeys : (Value.table tree).KeysOnce) (hbyKeys : ByKeys tree)
    (h : Reordered tree tree') : ofTree tree' = ofTree tree := by
  have hfits : Fits tree' ↔ Fits tree := ⟨h.mirrors.fits, h.mirrored.fits⟩
  have hgives setting v : Gives tree' setting v ↔ Gives tree setting v :=
    ⟨h.mirrored.gives, h.mirrors.gives⟩
  have hover c : Overrides tree' c ↔ Overrides tree c := by
    constructor
    · rintro ⟨hgiven, hothers⟩
      exact ⟨fun setting v hv => hgiven setting v ((hgives setting v).2 hv),
        fun setting hnot => hothers setting fun v hv => hnot v ((hgives setting v).1 hv)⟩
    · rintro ⟨hgiven, hothers⟩
      exact ⟨fun setting v hv => hgiven setting v ((hgives setting v).1 hv),
        fun setting hnot => hothers setting fun v hv => hnot v ((hgives setting v).2 hv)⟩
  ext c
  rw [ofTree_eq_some_iff (h.keysOnce hkeys) (h.mirrored.byKeys hbyKeys),
    ofTree_eq_some_iff hkeys hbyKeys, hfits, hover]

/-- A document is read field by field. -/
structure ReadByFields (tree : List (Text × Value)) : Prop where
  /-- It describes a configuration exactly when all that it says is known and of its type. -/
  accepted : (∃ c, ofTree tree = some c) ↔ Fits tree
  /-- That is the default configuration but for the fields that it gives. -/
  overrides : ∀ c, ofTree tree = some c ↔ Fits tree ∧ Overrides tree c
  /-- The order of the sections and of their keys does not matter. -/
  order : ∀ tree', Reordered tree tree' → ofTree tree' = ofTree tree
  /-- Something unknown or of the wrong type is an error of its own, for every text of the document
  and every way to load it. Nothing is validated then. -/
  refused : ¬Fits tree → ∀ t, Toml.document? t = some tree →
    ∀ {origin answer}, LoadsAs t origin answer → answer = .error (.refused origin .notToml)
  /-- Otherwise the configuration is validated. -/
  validated : Fits tree → ∃ c, Overrides tree c ∧ ∀ t, Toml.document? t = some tree →
    ∀ {origin answer}, LoadsAs t origin answer →
      (c.issues = [] → answer = .ok c) ∧
        (c.issues ≠ [] → answer = .error (.refused origin (.invalid c.issues)))

theorem readByFields (hkeys : (Value.table tree).KeysOnce) (hbyKeys : ByKeys tree) :
    ReadByFields tree where
  accepted := exists_ofTree_iff hbyKeys
  overrides := fun _ => ofTree_eq_some_iff hkeys hbyKeys
  order := fun _ => ofTree_reordered hkeys hbyKeys
  refused := by
    intro hnot t ht origin answer h
    have hnone : ofTree tree = none := by
      rw [Option.eq_none_iff_forall_not_mem]
      intro c hc
      exact hnot ((exists_ofTree_iff hbyKeys).1 ⟨c, hc⟩)
    rw [h.eq_ofText, ofText, parse, ht, Option.bind_some, hnone]
  validated := by
    intro hfits
    obtain ⟨c, hc⟩ := (exists_ofTree_iff hbyKeys).2 hfits
    refine ⟨c, overrides_of_ofTree hkeys hbyKeys hc, ?_⟩
    intro t ht origin answer h
    rw [h.eq_ofText, ofText, parse, ht, Option.bind_some, hc]
    cases hissues : c.issues with
    | nil => simp [hissues]
    | cons i issues => simp [hissues]

/-- Every document, none of whose sections is an array, is read field by field, whatever it says:
the tree of a document gives no key twice. -/
theorem ofTree_exact :
    (∀ tree, (Value.table tree).KeysOnce → ByKeys tree → ReadByFields tree) ∧
      ∀ t tree, Toml.document? t = some tree → (Value.table tree).KeysOnce :=
  ⟨fun _ => readByFields, fun _ _ => Toml.keysOnce_of_document?⟩

theorem byKeys_of_tables (h : ∀ e ∈ tree, ∃ entries, e.2 = .table entries) : ByKeys tree := by
  intro sec items hmem
  obtain ⟨entries, heq⟩ := h _ hmem
  cases heq

/-- A document with parts of two sections. -/
def partialText : Text := "banner.enabled = false\n[record]\nkey_type = 'k'".toList

/-- What it says. -/
def partialTree : List (Text × Value) :=
  [(bannerKey, .table [(enabledKey, .boolean false)]),
    (recordKey, .table [(keyTypeKey, .text ['k'])])]

/-- A document with a blank banner, which is a fault, and with a key that is not known. -/
def strangeText : Text := "[banner]\ntext = ''\nline = 'a'".toList

/-- What it says. -/
def strangeTree : List (Text × Value) :=
  [(bannerKey, .table [(textKey, .text []), ("line".toList, .text ['a'])])]

/-- What the one document leaves out has its default, in either order; the fault of the other one
is not told. -/
theorem ofTree_exact_partial_sections :
    let c : Config := { banner := { enabled := false }, record := { keyType := ['k'] } }
    Toml.document? partialText = some partialTree ∧ ofTree partialTree = some c ∧
      Overrides partialTree c ∧ ofTree partialTree.reverse = some c ∧
      Toml.document? strangeText = some strangeTree ∧ ¬Fits strangeTree ∧
      ofText inlineOrigin strangeText = .error (.refused inlineOrigin .notToml) := by
  intro c
  obtain ⟨hexact, hkeys⟩ := ofTree_exact
  have hdocument : Toml.document? partialText = some partialTree := by cbv
  have htables : ∀ e ∈ partialTree, ∃ entries, e.2 = .table entries := by
    rw [partialTree, List.forall_mem_cons, List.forall_mem_singleton]
    exact ⟨⟨_, rfl⟩, ⟨_, rfl⟩⟩
  have hread := hexact _ (hkeys _ _ hdocument) (byKeys_of_tables htables)
  have htree : ofTree partialTree = some c := rfl
  have hreverse : Reordered partialTree partialTree.reverse :=
    ⟨partialTree.reverse, partialTree.reverse_perm.symm, List.forall₂_same.2 fun e _ => .refl e⟩
  have hstrange : Toml.document? strangeText = some strangeTree := by cbv
  have hstrangeTables : ∀ e ∈ strangeTree, ∃ entries, e.2 = .table entries := by
    rw [strangeTree, List.forall_mem_singleton]
    exact ⟨_, rfl⟩
  have hstrangeRead := hexact _ (hkeys _ _ hstrange) (byKeys_of_tables hstrangeTables)
  have hnot : ¬Fits strangeTree := by
    intro hfits
    obtain ⟨c, hc⟩ := hstrangeRead.accepted.2 hfits
    cases hc
  exact ⟨hdocument, htree, ((hread.overrides c).1 htree).2, (hread.order _ hreverse).trans htree,
    hstrange, hnot, hstrangeRead.refused hnot _ hstrange .inline⟩

end Config

end ClientPatch
