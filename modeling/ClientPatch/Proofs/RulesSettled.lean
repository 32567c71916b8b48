import ClientPatch.Proofs.ConfigLoaded
import ClientPatch.Proofs.RulesExact

/-!
# Texts that the rules leave alone

A text is settled when it begins with the banner and every call beyond the banner has its key.
The rules leave a settled text alone, and when the key type holds no call of its own, whatever
they make of a source is settled. So a second run finds nothing to do, which is what
validation of a configuration is there for, and the calls of the result are as they should be
however they are looked for.
-/

namespace ClientPatch

namespace Rules

/-- The rules find nothing to do in the text. -/
structure Settled (rules : Rules) (t : Text) : Prop where
  /-- The text begins with the banner. -/
  begins : rules.Begins t
  /-- Every call that ends beyond the banner has its key. -/
  keyed : ∀ r ∈ rules.record, ∀ p q, t = p ++ (recordToken ++ q) →
    rules.bannerSize < p.size + recordToken.size → hasKey r.keyType q = true

theorem Settled.lacking_eq_nil {rules : Rules} {t : Text} (h : rules.Settled t) :
    rules.lacking t = [] := by
  refine List.eq_nil_iff_forall_not_mem.2 fun c hc => ?_
  obtain ⟨r, hr, p, q, ht, rfl, hlt, hkey⟩ := mem_lacking_iff.1 hc
  rw [bannerEnd_eq h.begins] at hlt
  rw [h.keyed r hr p q ht hlt] at hkey
  cases hkey

/-- A settled text is left alone. -/
theorem Settled.transform_eq {rules : Rules} {t : Text} (h : rules.Settled t) :
    rules.transform t = .ok ⟨t, false, []⟩ := by
  obtain ⟨out, htransform, hmakes⟩ := exists_transform rules t
  have hline : rules.bannerLine t = [] := (bannerLine_eq_nil_iff rules t).2 h.begins
  have hbannered : rules.bannered t = t := by
    rw [bannered, hline]
    rfl
  rw [Makes, hbannered, h.lacking_eq_nil] at hmakes
  rw [hbannered, h.lacking_eq_nil] at htransform
  cases hmakes
  rw [htransform, hline]
  rfl

/-- Behind the banner every call of what comes out has its key, when the key type holds no
call. -/
theorem Makes.keyed {banner : Option Text} {key source out : Text}
    (h : (ofTexts banner (some key)).Makes source out) (hfree : ¬recordToken <:+: key) :
    ∀ p q, out = p ++ (recordToken ++ q) →
      (ofTexts banner (some key)).bannerSize < p.size + recordToken.size →
      IsKeyed (Text.trim key) q := by
  have htrim : ¬recordToken <:+: Text.trim key := fun hin =>
    hfree (hin.trans (Text.trim_isInfix key))
  refine Inserted.covered h htrim (fun _ hc => bannerSize_lt_argsStart hc) fun p q ht hlt => ?_
  by_cases hkey : hasKey (Text.trim key) q = true
  · exact Or.inl (hasKey_trim_iff.1 hkey)
  · refine Or.inr (mem_lacking_iff.2 ⟨_, rfl, p, q, ht, rfl, ?_, ?_⟩)
    · rw [bannerEnd_bannered]
      exact hlt
    · simpa [RecordKey.ofText] using hkey

/-- Whatever the rules make of a source begins with the banner. -/
theorem Makes.begins {rules : Rules} {source out : Text} (h : rules.Makes source out) :
    rules.Begins out := by
  intro b hb
  obtain ⟨z, hz⟩ := begins_bannered rules source b hb
  have hsize : rules.bannerSize = b.text.size := by
    rw [bannerSize, hb]
    rfl
  have hinserted : Inserted rules.piece 0 (rules.lacking (rules.bannered source))
      (b.text ++ z) out := by
    rw [hz]
    exact h
  obtain ⟨tail, hout⟩ := hinserted.exists_append fun c hc => by
    have hlt := bannerSize_lt_argsStart hc
    omega
  exact ⟨tail, hout.symm⟩

/-- Whatever the rules make of a source is settled, when the key type holds no call. -/
theorem Makes.settled {banner keyType : Option Text} {source out : Text}
    (h : (ofTexts banner keyType).Makes source out)
    (hfree : ∀ key ∈ keyType, ¬recordToken <:+: key) :
    (ofTexts banner keyType).Settled out := by
  refine ⟨h.begins, fun r hr p q hout hlt => ?_⟩
  cases keyType with
  | none => cases hr
  | some key =>
    cases hr
    exact hasKey_trim_iff.2 (h.keyed (hfree key rfl) p q hout hlt)

/-- A second run of the rules finds nothing to do, whatever the source of the first. -/
def Idempotent (rules : Rules) : Prop :=
  ∀ source, ∃ once, rules.transform source = .ok once ∧
    rules.transform once.contents = .ok ⟨once.contents, false, []⟩

theorem idempotent_ofTexts {banner keyType : Option Text}
    (hfree : ∀ key ∈ keyType, ¬recordToken <:+: key) : (ofTexts banner keyType).Idempotent := by
  intro source
  obtain ⟨out, htransform, hmakes⟩ := exists_transform (ofTexts banner keyType) source
  exact ⟨_, htransform, (hmakes.settled hfree).transform_eq⟩

end Rules

/-- The rules of a configuration without faults have no call in their key type. -/
theorem Config.idempotent_rules {c : Config} (h : c.issues = []) : c.rules.Idempotent := by
  refine Rules.idempotent_ofTexts fun key hkey => ?_
  obtain ⟨-, hkey⟩ := Option.ite_none_right_eq_some.1 hkey
  cases hkey
  exact keyType_free h

namespace Rules

/-- A second run finds nothing to do for every banner and every key type without a call, and
for every configuration that can be loaded. -/
theorem transform_idempotent :
    (∀ banner keyType : Option Text, (∀ key ∈ keyType, ¬recordToken <:+: key) →
      (ofTexts banner keyType).Idempotent) ∧
    ∀ c : Config, c.Loaded → c.rules.Idempotent := by
  refine ⟨fun banner keyType hfree => idempotent_ofTexts hfree, ?_⟩
  intro c hloaded
  exact Config.idempotent_rules hloaded.issues_eq_nil

/-- A banner that is a call and has no line end of its own, a padded key, and a configuration
that turns the banner rule off. -/
theorem transform_idempotent_banner_call :
    (ofTexts (some "z.record(".toList) (some [' ', 'k', ' '])).Idempotent ∧
      ∃ c, Config.ofText Config.inlineOrigin "banner.enabled = false".toList = .ok c ∧
        c.rules.Idempotent := by
  refine ⟨transform_idempotent.1 _ _ fun key hkey => ?_, ?_⟩
  · cases hkey
    rw [← Text.hasInfix_iff]
    decide
  · have hload : (Config.ofText Config.inlineOrigin "banner.enabled = false".toList).isOk =
        true := by decide +kernel
    cases hc : Config.ofText Config.inlineOrigin "banner.enabled = false".toList with
    | error e => rw [hc] at hload; cases hload
    | ok c => exact ⟨c, rfl, transform_idempotent.2 c (.ofText hc)⟩

end Rules

/-- The result has the banner in front and the key in its calls, however they are looked for. -/
structure Transformed.IsCovered (banner : Option Text) (key source : Text) (t : Transformed) :
    Prop where
  /-- The banner comes first. -/
  begins : ∀ b ∈ banner, b <+: t.contents
  /-- It has a line of its own where the source did not begin with it. -/
  begins_line : ∀ b ∈ banner, ¬b <+: source → b ++ ['\n'] <+: t.contents
  /-- Every call that ends beyond the banner has its key. -/
  keyed : ∀ p q, t.contents = p ++ (recordToken ++ q) →
    (banner.map Text.size).getD 0 < p.size + recordToken.size → IsKeyed (Text.trim key) q
  /-- With a banner that holds no call, every call of the result has its key. -/
  keyed_of_free : (∀ b ∈ banner, ¬recordToken <:+: b) →
    ∀ p q, t.contents = p ++ (recordToken ++ q) → IsKeyed (Text.trim key) q

namespace Rules

/-- A call that ends within the text in front stands in that text. -/
theorem token_infix_of_isPrefix {b t p q : Text} (hb : b <+: t)
    (ht : t = p ++ (recordToken ++ q)) (hle : p.size + recordToken.size ≤ b.size) :
    recordToken <:+: b := by
  obtain ⟨z, rfl⟩ := hb
  have heq : (p ++ recordToken) ++ q = b ++ z := by
    rw [ht, List.append_assoc]
  have hsize : Text.size (p ++ recordToken) ≤ b.size := by
    rwa [Text.size_append]
  obtain ⟨m, hm, -⟩ := Text.append_split heq hsize
  exact ⟨p, m, hm.symm⟩

/-- With a key type that holds no call the rules cover the result. -/
theorem exists_covered {key : Text} (hfree : ¬recordToken <:+: key) (banner : Option Text)
    (source : Text) :
    ∃ t, (ofTexts banner (some key)).transform source = .ok t ∧
      t.IsCovered banner key source := by
  obtain ⟨out, htransform, hmakes⟩ := exists_transform (ofTexts banner (some key)) source
  have hbegins := begins_ofTexts.1 hmakes.begins
  have hkeyed := hmakes.keyed hfree
  rw [bannerSize_ofTexts] at hkeyed
  refine ⟨_, htransform, hbegins, fun b hb hsource => ?_, hkeyed, fun hbanner p q hout => ?_⟩
  · cases hb
    have hpresent : (Banner.mk b).isPresent source = false := by
      rw [← Bool.not_eq_true]
      exact fun hp => hsource (Text.hasPrefix_iff.1 hp)
    obtain ⟨tail, hout⟩ := hmakes.exists_append
    refine ⟨tail, ?_⟩
    simpa [bannerLine, ofTexts, hpresent] using hout.symm
  · refine hkeyed p q hout (Nat.lt_of_not_le fun hle => ?_)
    cases banner with
    | none =>
      rw [size_recordToken] at hle
      exact absurd hle (by simp)
    | some b => exact hbanner b rfl (token_infix_of_isPrefix (hbegins b rfl) hout hle)

/-- The result begins with the banner, and every occurrence of the characters of a call beyond
the banner is followed by the key; for a valid configuration that is every occurrence. -/
theorem transform_covered :
    (∀ (banner : Option Text) (key source : Text), ¬recordToken <:+: key →
      ∃ t, (ofTexts banner (some key)).transform source = .ok t ∧
        t.IsCovered banner key source) ∧
    ∀ (c : Config) (source : Text), c.issues = [] → c.record.enabled = true →
      ∃ t, c.rules.transform source = .ok t ∧
        ∀ p q, t.contents = p ++ (recordToken ++ q) →
          IsKeyed (Text.trim c.record.keyType) q := by
  refine ⟨fun banner key source hfree => exists_covered hfree banner source, ?_⟩
  intro c source hissues hon
  obtain ⟨t, ht, hcovered⟩ := exists_covered (Config.keyType_free hissues)
    (if c.banner.enabled then some c.banner.text else none) source
  refine ⟨t, ?_, hcovered.keyed_of_free fun b hb => ?_⟩
  · rw [Config.rules, if_pos hon]
    exact ht
  · obtain ⟨-, hb⟩ := Option.ite_none_right_eq_some.1 hb
    cases hb
    exact Config.banner_free hissues

/-- A banner that ends in the middle of a call, in front of a call; and the standard
configuration. -/
theorem transform_covered_partial_call :
    (∃ t, (ofTexts (some "#.record".toList) (some ['k'])).transform
        "(.record(.record( k , x".toList = .ok t ∧
      t.IsCovered (some "#.record".toList) ['k'] "(.record(.record( k , x".toList) ∧
    ∃ t, ({} : Config).rules.transform "z.record(x)".toList = .ok t ∧
      ∀ p q, t.contents = p ++ (recordToken ++ q) →
        IsKeyed (Text.trim "z.string()".toList) q := by
  refine ⟨transform_covered.1 _ _ _ fun hin => ?_, ?_⟩
  · rw [← Text.hasInfix_iff] at hin
    revert hin
    decide
  · exact transform_covered.2 {} "z.record(x)".toList Config.issues_default rfl

end Rules

end ClientPatch
