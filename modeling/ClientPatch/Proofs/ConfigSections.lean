import ClientPatch.Config.Decode
import Mathlib.Tactic.SplitIfs

/-!
# What a key does to a section

A section is read like a record with a lens for each of its keys: a key gives its own field the
value that stands under it, and changes no other field. The sections are in turn the fields of the
whole configuration. So where no key stands twice, it is settled key by key what is read, and the
order in which the keys are taken does not come into it.
-/

namespace ClientPatch

open Toml (Value)

namespace SectionShape

variable {σ α : Type} {shape : SectionShape σ} {entries : List (Text × Value)} {s s' : σ}
  {key : Text} {v : Value} {get : σ → α} {Says : Value → α → Prop}

theorem override_cons_eq_some_iff {e : Text × Value} :
    shape.override (e :: entries) s = some s' ↔
      ∃ mid, shape.set e.1 e.2 s = some mid ∧ shape.override entries mid = some s' := by
  rw [override]
  cases shape.set e.1 e.2 s <;> simp

/-- All entries are taken exactly when each one fits, where what is there already does not
matter for that. -/
theorem exists_override_iff {Fits : Text → Value → Prop}
    (hset : ∀ key v s, (∃ s', shape.set key v s = some s') ↔ Fits key v) :
    (∃ s', shape.override entries s = some s') ↔ ∀ e ∈ entries, Fits e.1 e.2 := by
  induction entries generalizing s with
  | nil => simp [override]
  | cons e entries ih =>
    rw [List.forall_mem_cons, ← hset e.1 e.2 s]
    constructor
    · rintro ⟨s', h⟩
      obtain ⟨mid, hmid, hrest⟩ := override_cons_eq_some_iff.1 h
      exact ⟨⟨mid, hmid⟩, ih.1 ⟨s', hrest⟩⟩
    · rintro ⟨⟨mid, hmid⟩, hrest⟩
      obtain ⟨s', hs'⟩ := ih.2 hrest
      exact ⟨s', override_cons_eq_some_iff.2 ⟨mid, hmid, hs'⟩⟩

/-- A field belongs to a key: the key gives it what the value says, and no other key changes it. -/
structure Owns (shape : SectionShape σ) (key : Text) (get : σ → α) (Says : Value → α → Prop) :
    Prop where
  /-- What the key does to its field. -/
  self : ∀ v s s', shape.set key v s = some s' → Says v (get s')
  /-- What other keys do to it. -/
  other : ∀ key' v s s', key' ≠ key → shape.set key' v s = some s' → get s' = get s

/-- Where its key is not given, a field stays. -/
theorem Owns.override_of_notMem (h : shape.Owns key get Says)
    (hkey : ∀ v, (key, v) ∉ entries) (hover : shape.override entries s = some s') :
    get s' = get s := by
  induction entries generalizing s with
  | nil =>
    cases hover
    rfl
  | cons e entries ih =>
    obtain ⟨mid, hmid, hrest⟩ := override_cons_eq_some_iff.1 hover
    have hne : e.1 ≠ key := by
      rintro rfl
      exact hkey e.2 List.mem_cons_self
    rw [ih (fun v hv => hkey v (List.mem_cons_of_mem _ hv)) hrest, h.other e.1 e.2 s mid hne hmid]

/-- A field is what the value says that is given under its key; nothing behind it changes that. -/
theorem Owns.override_of_mem (h : shape.Owns key get Says)
    (hkeys : (entries.map Prod.fst).Nodup) (hmem : (key, v) ∈ entries)
    (hover : shape.override entries s = some s') : Says v (get s') := by
  induction entries generalizing s with
  | nil => cases hmem
  | cons e entries ih =>
    obtain ⟨mid, hmid, hrest⟩ := override_cons_eq_some_iff.1 hover
    rw [List.map_cons, List.nodup_cons] at hkeys
    rcases List.mem_cons.1 hmem with rfl | hmem
    · have hnone : ∀ v', (key, v') ∉ entries := by
        intro v' hv'
        exact hkeys.1 (List.mem_map.2 ⟨(key, v'), hv', rfl⟩)
      rw [h.override_of_notMem hnone hrest]
      exact h.self v s mid hmid
    · exact ih hkeys.2 hmem hrest

/-- The section takes two keys, each in its own way. -/
structure Takes (shape : SectionShape σ) (first second : Text)
    (byFirst bySecond : Value → σ → σ → Prop) : Prop where
  /-- The keys differ. -/
  ne : first ≠ second
  /-- There are no other keys. -/
  set_iff : ∀ key v s s', shape.set key v s = some s' ↔
    key = first ∧ byFirst v s s' ∨ key = second ∧ bySecond v s s'

variable {first second : Text} {byFirst bySecond : Value → σ → σ → Prop}

theorem Takes.symm (h : shape.Takes first second byFirst bySecond) :
    shape.Takes second first bySecond byFirst where
  ne := h.ne.symm
  set_iff key v s s' := by rw [h.set_iff, or_comm]

/-- A value of one kind, whose datum is put into the section. -/
def Puts {β : Type} (wrap : β → Value) (put : β → σ → σ) (v : Value) (s s' : σ) : Prop :=
  ∃ x, v = wrap x ∧ put x s = s'

section Kinds

variable {β γ : Type} {wrap : β → Value} {wrap' : γ → Value} {put : β → σ → σ}
  {put' : γ → σ → σ} {field : σ → Option Value}

/-- A section whose `set` looks for two keys one after the other takes these two, each with values
of one kind. -/
theorem takes_of_ite {read : Value → Option β} {read' : Value → Option γ}
    (hread : ∀ {v x}, read v = some x ↔ v = wrap x)
    (hread' : ∀ {v x}, read' v = some x ↔ v = wrap' x) (hne : first ≠ second)
    (hset : ∀ key v s, shape.set key v s =
      if key = first then (read v).map (put · s)
      else if key = second then (read' v).map (put' · s)
      else none) :
    shape.Takes first second (Puts wrap put) (Puts wrap' put') where
  ne := hne
  set_iff key v s s' := by
    rw [hset]
    by_cases hfirst : key = first
    · subst hfirst
      simp [Puts, hread, hne]
    · by_cases hsecond : key = second
      · simp [Puts, hread', hsecond, hne.symm]
      · simp [hfirst, hsecond]

/-- A field that shows what is put under the first key, and that the second one leaves alone,
belongs to the first. -/
theorem Takes.owns (h : shape.Takes first second (Puts wrap put) (Puts wrap' put'))
    (hself : ∀ x s, field (put x s) = some (wrap x))
    (hother : ∀ y s, field (put' y s) = field s) :
    shape.Owns first field fun v given => given = some v where
  self := by
    intro v s s' hset
    rcases (h.set_iff first v s s').1 hset with ⟨-, x, rfl, rfl⟩ | ⟨heq, -⟩
    · exact hself x s
    · exact absurd heq h.ne
  other := by
    intro key v s s' hne hset
    rcases (h.set_iff key v s s').1 hset with ⟨heq, -⟩ | ⟨-, y, -, rfl⟩
    · exact absurd heq hne
    · exact hother y s

/-- A value of its kind can be put under the first key. -/
theorem Takes.exists_set (h : shape.Takes first second (Puts wrap put) bySecond)
    (hv : ∃ x, v = wrap x) (s : σ) : ∃ s', shape.set first v s = some s' := by
  obtain ⟨x, hx⟩ := hv
  exact ⟨put x s, (h.set_iff _ _ _ _).2 (.inl ⟨rfl, x, hx, rfl⟩)⟩

end Kinds

end SectionShape

/-- The sections of a configuration. -/
inductive ConfigSection where
  /-- The file to patch. -/
  | target
  /-- The banner rule. -/
  | banner
  /-- The record rule. -/
  | record

/-- The fields of the sections. -/
inductive ConfigSetting where
  /-- The target file. -/
  | targetFile
  /-- The workspace root. -/
  | targetRoot
  /-- Whether the banner rule is on. -/
  | bannerEnabled
  /-- The banner line. -/
  | bannerText
  /-- Whether the record rule is on. -/
  | recordEnabled
  /-- The key type. -/
  | keyType

namespace ConfigSection

/-- The key of the section. -/
def name : ConfigSection → Text
  | .target => targetKey
  | .banner => bannerKey
  | .record => recordKey

/-- What the section describes. -/
def Part : ConfigSection → Type
  | .target => TargetConfig
  | .banner => BannerConfig
  | .record => RecordConfig

/-- How the section is read. -/
def shape : (sec : ConfigSection) → SectionShape sec.Part
  | .target => targetShape
  | .banner => bannerShape
  | .record => recordShape

/-- What a configuration has of the section. -/
def part : (sec : ConfigSection) → Config → sec.Part
  | .target, c => c.target
  | .banner, c => c.banner
  | .record, c => c.record

/-- A configuration with another such section. -/
def put : (sec : ConfigSection) → sec.Part → Config → Config
  | .target, s, c => { c with target := s }
  | .banner, s, c => { c with banner := s }
  | .record, s, c => { c with record := s }

theorem part_put (sec : ConfigSection) (s : sec.Part) (c : Config) :
    sec.part (sec.put s c) = s := by
  cases sec <;> rfl

theorem part_put_of_ne {sec other : ConfigSection} (hne : sec ≠ other) (s : sec.Part)
    (c : Config) : other.part (sec.put s c) = other.part c := by
  cases sec <;> cases other <;> first | rfl | exact absurd rfl hne

theorem name_inj {sec other : ConfigSection} (h : sec.name = other.name) : sec = other := by
  cases sec <;> cases other <;> first | rfl | exact absurd h (by decide)

/-- A section that is left out and one in which nothing is given are the same. -/
theorem bare_shape (sec : ConfigSection) : sec.shape.bare = sec.part configShape.bare := by
  cases sec <;> rfl

/-- What a key does to a configuration: it names a section, and the value describes that. -/
theorem set_configShape_iff {key : Text} {v : Value} {c c' : Config} :
    configShape.set key v c = some c' ↔
      ∃ sec : ConfigSection, sec.name = key ∧
        ∃ s, sec.shape.read v = some s ∧ sec.put s c = c' := by
  simp only [configShape]
  constructor
  · intro h
    split_ifs at h with htarget hbanner hrecord
    · exact ⟨.target, htarget.symm, Option.map_eq_some_iff.1 h⟩
    · exact ⟨.banner, hbanner.symm, Option.map_eq_some_iff.1 h⟩
    · exact ⟨.record, hrecord.symm, Option.map_eq_some_iff.1 h⟩
  · rintro ⟨sec, rfl, s, hs, rfl⟩
    cases sec with
    | target => exact Option.map_eq_some_iff.2 ⟨s, hs, rfl⟩
    | banner => exact Option.map_eq_some_iff.2 ⟨s, hs, rfl⟩
    | record => exact Option.map_eq_some_iff.2 ⟨s, hs, rfl⟩

/-- A section of the configuration belongs to its key. -/
theorem owns (sec : ConfigSection) :
    configShape.Owns sec.name sec.part fun v s => sec.shape.read v = some s where
  self := by
    intro v c c' h
    obtain ⟨sec', hname, s, hs, rfl⟩ := set_configShape_iff.1 h
    obtain rfl := name_inj hname
    rw [part_put]
    exact hs
  other := by
    intro key v c c' hne h
    obtain ⟨sec', rfl, s, -, rfl⟩ := set_configShape_iff.1 h
    refine part_put_of_ne ?_ s c
    rintro rfl
    exact hne rfl

end ConfigSection

theorem textValue?_eq_some_iff {v : Value} {t : Text} :
    textValue? v = some t ↔ v = .text t := by
  cases v <;> simp [textValue?]

theorem booleanValue?_eq_some_iff {v : Value} {b : Bool} :
    booleanValue? v = some b ↔ v = .boolean b := by
  cases v <;> simp [booleanValue?]

theorem takes_targetShape : targetShape.Takes fileKey rootKey
    (SectionShape.Puts .text fun t s => { s with file := t })
    (SectionShape.Puts .text fun t s => { s with root := some t }) :=
  SectionShape.takes_of_ite textValue?_eq_some_iff textValue?_eq_some_iff (by decide)
    fun _ _ _ => rfl

theorem takes_bannerShape : bannerShape.Takes enabledKey textKey
    (SectionShape.Puts .boolean fun b s => { s with enabled := b })
    (SectionShape.Puts .text fun t s => { s with text := t }) :=
  SectionShape.takes_of_ite booleanValue?_eq_some_iff textValue?_eq_some_iff (by decide)
    fun _ _ _ => rfl

theorem takes_recordShape : recordShape.Takes enabledKey keyTypeKey
    (SectionShape.Puts .boolean fun b s => { s with enabled := b })
    (SectionShape.Puts .text fun t s => { s with keyType := t }) :=
  SectionShape.takes_of_ite booleanValue?_eq_some_iff textValue?_eq_some_iff (by decide)
    fun _ _ _ => rfl

namespace ConfigSetting

/-- The section that the field is in. -/
def home : ConfigSetting → ConfigSection
  | .targetFile => .target
  | .targetRoot => .target
  | .bannerEnabled => .banner
  | .bannerText => .banner
  | .recordEnabled => .record
  | .keyType => .record

/-- The key of the field in its section. -/
def key : ConfigSetting → Text
  | .targetFile => fileKey
  | .targetRoot => rootKey
  | .bannerEnabled => enabledKey
  | .bannerText => textKey
  | .recordEnabled => enabledKey
  | .keyType => keyTypeKey

/-- The value is of the type of the field. -/
def Accepts : ConfigSetting → Value → Prop
  | .bannerEnabled, v => ∃ b, v = .boolean b
  | .recordEnabled, v => ∃ b, v = .boolean b
  | _, v => ∃ t, v = .text t

/-- The value of the field, if it has one. Only the root can be without. -/
def value? : (setting : ConfigSetting) → setting.home.Part → Option Value
  | .targetFile, (s : TargetConfig) => some (.text s.file)
  | .targetRoot, (s : TargetConfig) => s.root.map .text
  | .bannerEnabled, (s : BannerConfig) => some (.boolean s.enabled)
  | .bannerText, (s : BannerConfig) => some (.text s.text)
  | .recordEnabled, (s : RecordConfig) => some (.boolean s.enabled)
  | .keyType, (s : RecordConfig) => some (.text s.keyType)

/-- A field of a section belongs to its key. -/
theorem owns (setting : ConfigSetting) :
    setting.home.shape.Owns setting.key setting.value? fun v given => given = some v := by
  cases setting with
  | targetFile => exact takes_targetShape.owns (fun _ _ => rfl) fun _ _ => rfl
  | targetRoot => exact takes_targetShape.symm.owns (fun _ _ => rfl) fun _ _ => rfl
  | bannerEnabled => exact takes_bannerShape.owns (fun _ _ => rfl) fun _ _ => rfl
  | bannerText => exact takes_bannerShape.symm.owns (fun _ _ => rfl) fun _ _ => rfl
  | recordEnabled => exact takes_recordShape.owns (fun _ _ => rfl) fun _ _ => rfl
  | keyType => exact takes_recordShape.symm.owns (fun _ _ => rfl) fun _ _ => rfl

/-- A value of its type can be put into a field. -/
theorem exists_set {v : Value} (setting : ConfigSetting) (h : setting.Accepts v)
    (s : setting.home.Part) : ∃ s', setting.home.shape.set setting.key v s = some s' := by
  cases setting with
  | targetFile => exact takes_targetShape.exists_set h s
  | targetRoot => exact takes_targetShape.symm.exists_set h s
  | bannerEnabled => exact takes_bannerShape.exists_set h s
  | bannerText => exact takes_bannerShape.symm.exists_set h s
  | recordEnabled => exact takes_recordShape.exists_set h s
  | keyType => exact takes_recordShape.symm.exists_set h s

/-- Nothing else can be put into a section. -/
theorem exists_of_set {sec : ConfigSection} {key : Text} {v : Value} {s s' : sec.Part}
    (h : sec.shape.set key v s = some s') :
    ∃ setting : ConfigSetting, setting.home = sec ∧ setting.key = key ∧ setting.Accepts v := by
  cases sec with
  | target =>
    rcases (takes_targetShape.set_iff key v s s').1 h with ⟨rfl, t, ht, -⟩ | ⟨rfl, t, ht, -⟩
    · exact ⟨.targetFile, rfl, rfl, t, ht⟩
    · exact ⟨.targetRoot, rfl, rfl, t, ht⟩
  | banner =>
    rcases (takes_bannerShape.set_iff key v s s').1 h with ⟨rfl, b, hb, -⟩ | ⟨rfl, t, ht, -⟩
    · exact ⟨.bannerEnabled, rfl, rfl, b, hb⟩
    · exact ⟨.bannerText, rfl, rfl, t, ht⟩
  | record =>
    rcases (takes_recordShape.set_iff key v s s').1 h with ⟨rfl, b, hb, -⟩ | ⟨rfl, t, ht, -⟩
    · exact ⟨.recordEnabled, rfl, rfl, b, hb⟩
    · exact ⟨.keyType, rfl, rfl, t, ht⟩

end ConfigSetting

/-- The value of a field in a configuration. -/
def Config.setting? (c : Config) (setting : ConfigSetting) : Option Value :=
  setting.value? (setting.home.part c)

/-- A configuration is no more than its fields. -/
theorem Config.ext_setting {c c' : Config}
    (h : ∀ setting, c.setting? setting = c'.setting? setting) : c = c' := by
  have hfile : some (Value.text c.target.file) = some (.text c'.target.file) := h .targetFile
  have hroot : c.target.root.map Value.text = c'.target.root.map .text := h .targetRoot
  have hbanner : some (Value.boolean c.banner.enabled) = some (.boolean c'.banner.enabled) :=
    h .bannerEnabled
  have htext : some (Value.text c.banner.text) = some (.text c'.banner.text) := h .bannerText
  have hrecord : some (Value.boolean c.record.enabled) = some (.boolean c'.record.enabled) :=
    h .recordEnabled
  have hkey : some (Value.text c.record.keyType) = some (.text c'.record.keyType) := h .keyType
  have hroot' := Option.map_injective (fun _ _ => Value.text.inj) hroot
  obtain ⟨⟨file, root⟩, ⟨enabled, text⟩, ⟨enabled', keyType⟩⟩ := c
  cases hfile
  cases hroot'
  cases hbanner
  cases htext
  cases hrecord
  cases hkey
  rfl

end ClientPatch
