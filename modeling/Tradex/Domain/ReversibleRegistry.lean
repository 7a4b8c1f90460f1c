import Tradex.Domain.InstrumentRegistry

/-!
# Reversibility of the instrument registry

A registry is reversible when the provider key of every instrument, and every key listed for it,
resolves to that instrument.
-/

namespace Tradex.Domain

open Tradex.Text Dict List Option

namespace InstrumentRegistry

section

variable (upper : String → String) (reg : InstrumentRegistry)

def lookup (key : String) : Option InstrumentKey :=
  (reg.byKey.get key).map InstrumentId.key

def keysOf (instr : InstrumentKey) : List String :=
  (reg.keysByInstrument.get instr).getD []

def Resolves (name : String) (instr : InstrumentKey) : Prop :=
  (reg.resolve upper name).map InstrumentId.key = some instr

structure Reversible (registry : InstrumentRegistry) : Prop where
  provider : ∀ instrument key, registry.providerKey instrument = some key →
    registry.Resolves upper key instrument.key
  listed : ∀ instrument, ∀ key ∈ registry.keysOf instrument, registry.Resolves upper key instrument

end

structure Sound (registry : InstrumentRegistry) : Prop where
  mem_keysOf_iff : ∀ instrument key,
    key ∈ registry.keysOf instrument ↔ registry.lookup key = some instrument
  primary : ∀ instrument key, registry.primaryByInstrument.get instrument = some key →
    key ∈ registry.keysOf instrument
  filed : ∀ instrument, ∀ key ∈ registry.keysOf instrument,
    ∃ entry, registry.byInstrument.get instrument = some entry
  filedUnder : ∀ instrument entry, registry.byInstrument.get instrument = some entry →
    entry.1.key = instrument
  stripped : ∀ instrument, ∀ key ∈ registry.keysOf instrument, strip key = key

section Reading

variable {upper : String → String} {reg : InstrumentRegistry} {key : String}
  {instr : InstrumentKey}

theorem resolves_of_lookup (hstrip : strip key = key)
    (hlook : reg.lookup key = some instr) : reg.Resolves upper key instr := by
  obtain ⟨found, hfind, rfl⟩ := map_eq_some_iff.1 hlook
  rw [Resolves, resolve, hstrip, hfind, map_some]

theorem Sound.reversible (hsound : reg.Sound) : reg.Reversible upper := by
  have hlist : ∀ instr, ∀ key ∈ reg.keysOf instr,
      reg.Resolves upper key instr := fun instr key hkey ↦
    resolves_of_lookup (hsound.stripped instr key hkey) ((hsound.mem_keysOf_iff instr key).1 hkey)
  exact ⟨fun instr key hprim ↦ hlist _ key (hsound.primary _ key hprim), hlist⟩

end Reading

variable {byKey : Dict String InstrumentId} {after : InstrumentRegistry} {keys : List String}
  {other : String}

section

variable {reg : InstrumentRegistry} {key : String} {instr : InstrumentId}
  {data : Metadata}

theorem lookup_of_not_taken (hfree : reg.takenBy key instr = none) :
    reg.lookup key = none ∨ reg.lookup key = some instr.key := by
  unfold takenBy at hfree
  unfold lookup
  cases hget : reg.byKey.get key with
  | none => exact .inl rfl
  | some old =>
    rw [hget] at hfree
    right
    by_cases hsame : old.key = instr.key
    · rw [map_some, hsame]
    · simp [hsame] at hfree

theorem Sound.keysOf_eq_nil {instr : InstrumentKey} (hsound : reg.Sound)
    (hnone : reg.byInstrument.get instr = none) : reg.keysOf instr = [] := by
  refine eq_nil_iff_forall_not_mem.2 fun key hkey ↦ ?_
  obtain ⟨found, hfind⟩ := hsound.filed instr key hkey
  cases hnone.symm.trans hfind

/-- A registry stays sound when one instrument is filed anew under keys that no other one has. -/
theorem Sound.refile (hsound : reg.Sound) (filed : InstrumentKey) (keys : List String)
    (hstrip : ∀ key ∈ keys, strip key = key)
    (hfree : ∀ key ∈ keys, reg.lookup key = none ∨ reg.lookup key = some filed)
    (hlook : ∀ key, after.lookup key = if key ∈ keys then some filed
      else if key ∈ reg.keysOf filed then none else reg.lookup key)
    (hkeys : ∀ instr, after.keysOf instr = if filed = instr then keys else reg.keysOf instr)
    (hprim : ∀ instr key, after.primaryByInstrument.get instr = some key →
      (filed = instr ∧ key ∈ keys) ∨
      (filed ≠ instr ∧ reg.primaryByInstrument.get instr = some key))
    (hfiled : ∃ entry : InstrumentId × Metadata, entry.1.key = filed ∧
      ∀ instr, after.byInstrument.get instr =
        if filed = instr then some entry else reg.byInstrument.get instr) :
    after.Sound := by
  obtain ⟨entry, hent, hfiled⟩ := hfiled
  constructor
  · intro instr key
    rw [hkeys, hlook]
    by_cases hsame : filed = instr
    · subst hsame
      have hold := hsound.mem_keysOf_iff filed key
      by_cases hkey : key ∈ keys
      · simp [hkey]
      · by_cases hlist : key ∈ reg.keysOf filed
        · simp [hkey, hlist]
        · simp [hkey, hlist, ← hold]
    · rw [if_neg hsame, hsound.mem_keysOf_iff]
      by_cases hkey : key ∈ keys
      · rcases hfree key hkey with hnone | hown <;> simp [*]
      · rw [if_neg hkey]
        split
        next hlost => simp [(hsound.mem_keysOf_iff _ _).1 hlost, hsame]
        next => exact Iff.rfl
  · intro instr key hkey
    rw [hkeys]
    rcases hprim instr key hkey with ⟨hsame, hnew⟩ | ⟨hother, hold⟩
    · rwa [if_pos hsame]
    · rw [if_neg hother]
      exact hsound.primary instr key hold
  · intro instr key hkey
    rw [hfiled]
    split
    next => exact ⟨entry, rfl⟩
    next hother =>
      rw [hkeys, if_neg hother] at hkey
      exact hsound.filed instr key hkey
  · intro instr found hfind
    rw [hfiled] at hfind
    split at hfind
    next hsame =>
      cases hfind
      exact hent.trans hsame
    next => exact hsound.filedUnder instr found hfind
  · intro instr key hkey
    rw [hkeys] at hkey
    split at hkey
    next => exact hstrip key hkey
    next => exact hsound.stripped instr key hkey

theorem Sound.put (hsound : reg.Sound) (hstrip : strip key = key) :
    (reg.put key instr data).2.Sound := by
  have hlist := hsound.mem_keysOf_iff instr.key
  unfold InstrumentRegistry.put
  split
  next => exact hsound
  next hfree =>
    refine hsound.refile instr.key ((reg.keysOf instr.key).insert key) ?_ ?_ ?_ ?_ ?_ ?_
    · intro other hother
      rcases mem_insert_iff.1 hother with rfl | hold
      · exact hstrip
      · exact hsound.stripped _ other hold
    · intro other hother
      rcases mem_insert_iff.1 hother with rfl | hold
      · exact lookup_of_not_taken hfree
      · exact .inr ((hlist other).1 hold)
    · intro other
      have hold := hlist other
      simp only [lookup, get_set, mem_insert_iff] at hold ⊢
      by_cases hkey : key = other
      · simp [hkey]
      · by_cases hmem : other ∈ reg.keysOf instr.key
        · simp [hmem, hkey, hold.1 hmem]
        · simp [hmem, hkey, Ne.symm hkey]
    · intro other
      simp only [keysOf, get_set]
      split
      next hother => rw [getD_some]
      next => rfl
    · intro other shown hshow
      cases hold : reg.primaryByInstrument.get instr.key with
      | none =>
        simp only [hold, get_set] at hshow
        split at hshow
        next hother => exact .inl ⟨hother, some.inj hshow ▸ mem_insert_self⟩
        next hother => exact .inr ⟨hother, hshow⟩
      | some first =>
        simp only [hold] at hshow
        by_cases hother : instr.key = other
        · exact .inl ⟨hother, mem_insert_of_mem (hsound.primary _ shown (hother ▸ hshow))⟩
        · exact .inr ⟨hother, hshow⟩
    · refine ⟨_, ?_, fun other ↦ get_set _ _ other _⟩
      split
      next => rfl
      next filed old hfiled => exact hsound.filedUnder _ (filed, old) hfiled

theorem get_dropKeys {kept : String} :
    (dropKeys instr kept keys byKey).get other =
      if other ∈ keys ∧ other ≠ kept ∧ (byKey.get other).map InstrumentId.key = some instr.key
      then none else byKey.get other := by
  unfold dropKeys
  induction keys generalizing byKey with
  | nil => simp
  | cons first rest ih =>
    rw [foldl_cons, ih]
    split
    next hdrop =>
      rw [get_erase]
      by_cases hfst : first = other
      · subst hfst
        simp [hdrop]
      · simp [hfst, Ne.symm hfst]
    next hkeep =>
      by_cases hfst : first = other
      · subst hfst
        rw [if_neg fun h ↦ hkeep h.2, if_neg fun h ↦ hkeep h.2]
      · simp [Ne.symm hfst]

theorem Sound.replace (hsound : reg.Sound) (hstrip : strip key = key) :
    (reg.replace key instr data).2.Sound := by
  unfold InstrumentRegistry.replace
  split
  next => exact hsound
  next hfree =>
    refine hsound.refile instr.key [key] (forall_mem_singleton.2 hstrip)
      (forall_mem_singleton.2 (lookup_of_not_taken hfree)) ?_ ?_ ?_ ?_
    · intro other
      have hlist := hsound.mem_keysOf_iff instr.key other
      simp only [lookup, get_set, get_dropKeys, mem_singleton]
      by_cases hkey : key = other
      · simp [hkey]
      · rw [if_neg hkey, if_neg (Ne.symm hkey)]
        by_cases hdrop : other ∈ reg.keysOf instr.key
        · rw [if_pos ⟨hdrop, Ne.symm hkey, hlist.1 hdrop⟩, if_pos hdrop, map_none]
        · rw [if_neg fun h ↦ hdrop h.1, if_neg hdrop]
    · intro other
      simp only [keysOf, get_set]
      split <;> rfl
    · intro other shown hshow
      simp only [get_set] at hshow
      split at hshow
      next hother => exact .inl ⟨hother, mem_singleton.2 (some.inj hshow).symm⟩
      next hother => exact .inr ⟨hother, hshow⟩
    · refine ⟨_, ?_, fun other ↦ get_set _ _ other _⟩
      cases hfiled : reg.byInstrument.get instr.key with
      | none => rfl
      | some entry => exact hsound.filedUnder _ entry hfiled

end

/-! ## Reloading -/

variable {key : String} {instr : InstrumentId}

section

variable {cur fresh other : InstrumentRegistry}

def NoReuse (cur other : InstrumentRegistry) : Prop :=
  ∀ instr, other.byInstrument.get instr = none →
    ∀ key ∈ cur.keysOf instr, other.lookup key = none

theorem get_setDefaults :
    (setDefaults instr keys byKey).get key =
      (byKey.get key).or (if key ∈ keys then some instr else none) := by
  unfold setDefaults
  induction keys generalizing byKey with
  | nil => simp
  | cons first rest ih =>
    rw [foldl_cons, ih]
    cases hfst : byKey.get first with
    | some taken =>
      by_cases hkey : key = first
      · subst hkey
        simp [hfst]
      · simp [hkey]
    | none =>
      simp only [get_set]
      by_cases hkey : first = key
      · subst hkey
        simp [hfst]
      · simp [hkey, Ne.symm hkey]

structure Carrying (current other fresh : InstrumentRegistry) : Prop where
  sound : fresh.Sound
  origin : ∀ key instrument, fresh.lookup key = some instrument →
    other.lookup key = some instrument ∨ current.lookup key = some instrument
  absent : ∀ instrument, fresh.byInstrument.get instrument = none →
    other.byInstrument.get instrument = none

section CarryOver

variable {entry : InstrumentKey × (InstrumentId × Metadata)}

theorem carryOver_of_filed {found : InstrumentId × Metadata}
    (hfiled : fresh.byInstrument.get entry.1 = some found) :
    cur.carryOver fresh entry = fresh := by
  simp [carryOver, hfiled]

section

variable (hfiled : fresh.byInstrument.get entry.1 = none)

include hfiled

theorem lookup_carryOver :
    (cur.carryOver fresh entry).lookup key =
      (fresh.lookup key).or (if key ∈ cur.keysOf entry.1 then some entry.2.1.key else none) := by
  cases hkeys : cur.keysByInstrument.get entry.1 with
  | none => simp [lookup, keysOf, carryOver, hfiled, hkeys]
  | some keys =>
    simp only [lookup, keysOf, carryOver, hfiled, hkeys, get_setDefaults, getD_some]
    cases fresh.byKey.get key with
    | some found => rfl
    | none => split <;> rfl

theorem keysOf_carryOver (hnil : fresh.keysOf entry.1 = []) (instr : InstrumentKey) :
    (cur.carryOver fresh entry).keysOf instr =
      if entry.1 = instr then cur.keysOf entry.1 else fresh.keysOf instr := by
  unfold keysOf at hnil ⊢
  cases hkeys : cur.keysByInstrument.get entry.1 with
  | none =>
    simp only [carryOver, hfiled, hkeys]
    split
    next heq => rw [← heq, getD_none, hnil]
    next => rfl
  | some keys =>
    simp only [carryOver, hfiled, hkeys, get_set]
    split <;> rfl

variable {instr : InstrumentKey}

theorem primary_carryOver
    (hprim : (cur.carryOver fresh entry).primaryByInstrument.get instr = some key) :
    (entry.1 = instr ∧ cur.primaryByInstrument.get instr = some key) ∨
      fresh.primaryByInstrument.get instr = some key := by
  simp only [carryOver, hfiled] at hprim
  cases hold : cur.primaryByInstrument.get entry.1 with
  | none =>
    rw [hold] at hprim
    exact .inr hprim
  | some shown =>
    simp only [hold, get_set] at hprim
    split at hprim
    next heq => exact .inl ⟨heq, by rw [← heq, hold, hprim]⟩
    next => exact .inr hprim

theorem byInstrument_carryOver :
    (cur.carryOver fresh entry).byInstrument.get instr =
      if entry.1 = instr then some entry.2 else fresh.byInstrument.get instr := by
  simp [carryOver, hfiled, get_set]

end

theorem Carrying.carryOver (hcur : cur.Sound) (hreuse : cur.NoReuse other)
    (hcarry : cur.Carrying other fresh)
    (hent : cur.byInstrument.get entry.1 = some entry.2) :
    cur.Carrying other (cur.carryOver fresh entry) := by
  cases hfiled : fresh.byInstrument.get entry.1 with
  | some found =>
    rw [carryOver_of_filed hfiled]
    exact hcarry
  | none =>
    have hunder : entry.2.1.key = entry.1 := hcur.filedUnder entry.1 entry.2 hent
    have hnil := hcarry.sound.keysOf_eq_nil hfiled
    -- The keys of the instrument are still free: the fresh registry does not use
    -- them, and in the current one they belong to this instrument alone.
    have hfree : ∀ key ∈ cur.keysOf entry.1, fresh.lookup key = none := by
      intro key hkey
      cases hlook : fresh.lookup key with
      | none => rfl
      | some taken =>
        have hlist := (hcarry.sound.mem_keysOf_iff taken key).2 hlook
        rcases hcarry.origin key taken hlook with hother | hold
        · rw [hreuse entry.1 (hcarry.absent entry.1 hfiled) key hkey] at hother
          cases hother
        · rw [(hcur.mem_keysOf_iff entry.1 key).1 hkey] at hold
          cases hold
          rw [hnil] at hlist
          cases hlist
    have hlook : ∀ key, (cur.carryOver fresh entry).lookup key =
        if key ∈ cur.keysOf entry.1 then some entry.1 else fresh.lookup key := by
      intro key
      rw [lookup_carryOver hfiled, hunder]
      split
      next hkey => rw [hfree key hkey, none_or]
      next => rw [or_none]
    refine ⟨hcarry.sound.refile entry.1 (cur.keysOf entry.1) (hcur.stripped entry.1)
      (fun key hkey ↦ .inl (hfree key hkey)) ?_ (keysOf_carryOver hfiled hnil) ?_
      ⟨entry.2, hunder, fun _ ↦ byInstrument_carryOver hfiled⟩, ?_, ?_⟩
    · intro key
      rw [hlook, hnil, if_neg not_mem_nil]
    · intro instr key hprim
      rcases primary_carryOver hfiled hprim with ⟨rfl, hold⟩ | hnew
      · exact .inl ⟨rfl, hcur.primary entry.1 key hold⟩
      · refine .inr ⟨?_, hnew⟩
        rintro rfl
        have hlist := hcarry.sound.primary entry.1 key hnew
        rw [hnil] at hlist
        cases hlist
    · intro key instr hfind
      rw [hlook] at hfind
      split at hfind
      next hkey =>
        cases hfind
        exact .inr ((hcur.mem_keysOf_iff _ _).1 hkey)
      next => exact hcarry.origin key instr hfind
    · intro instr hnone
      rw [byInstrument_carryOver hfiled] at hnone
      split at hnone
      next => cases hnone
      next => exact hcarry.absent instr hnone

end CarryOver

theorem Carrying.foldl (hcur : cur.Sound) (hreuse : cur.NoReuse other)
    (hcarry : cur.Carrying other fresh)
    (rows : List (InstrumentKey × (InstrumentId × Metadata)))
    (hrows : ∀ entry ∈ rows, cur.byInstrument.get entry.1 = some entry.2) :
    cur.Carrying other (rows.foldl cur.carryOver fresh) := by
  induction rows generalizing fresh with
  | nil => exact hcarry
  | cons entry rest ih =>
    obtain ⟨hent, hrest⟩ := forall_mem_cons.1 hrows
    exact ih (hcarry.carryOver hcur hreuse hent) hrest

def reloaded (cur other : InstrumentRegistry) : InstrumentRegistry :=
  (cur.replaceAll other).2

theorem Sound.reloaded (hcur : cur.Sound) (hother : other.Sound)
    (hreuse : cur.NoReuse other) : (cur.reloaded other).Sound := by
  have hstart : cur.Carrying other other :=
    ⟨hother, fun _ _ hlook ↦ .inl hlook, fun _ hgone ↦ hgone⟩
  have hend := (hstart.foldl hcur hreuse cur.byInstrument.entries
    fun entry hent ↦ lookupEntries_of_mem cur.byInstrument.nodupKeys hent).sound
  exact ⟨hend.mem_keysOf_iff, hend.primary, hend.filed, hend.filedUnder, hend.stripped⟩

structure Growing (current other fresh : InstrumentRegistry) : Prop where
  lookup : ∀ key instrument, other.lookup key = some instrument → fresh.lookup key = some instrument
  unlisted : ∀ instrument, fresh.byInstrument.get instrument = none → fresh.keysOf instrument = []
  carried : ∀ instrument, other.byInstrument.get instrument = none →
    fresh.byInstrument.get instrument = none ∨ fresh.keysOf instrument = current.keysOf instrument

theorem Growing.carryOver (hgrow : cur.Growing other fresh)
    (entry : InstrumentKey × (InstrumentId × Metadata)) :
    cur.Growing other (cur.carryOver fresh entry) := by
  cases hfiled : fresh.byInstrument.get entry.1 with
  | some found =>
    rw [carryOver_of_filed hfiled]
    exact hgrow
  | none =>
    have hkeys : ∀ instr, (cur.carryOver fresh entry).keysOf instr = _ :=
      keysOf_carryOver hfiled (hgrow.unlisted _ hfiled)
    refine ⟨?_, ?_, ?_⟩
    · intro key instr hlook
      rw [lookup_carryOver hfiled, hgrow.lookup key instr hlook, some_or]
    · intro instr hnone
      rw [byInstrument_carryOver hfiled] at hnone
      rw [hkeys]
      split at hnone
      next => cases hnone
      next hne =>
        rw [if_neg hne]
        exact hgrow.unlisted instr hnone
    · intro instr hgone
      rw [byInstrument_carryOver hfiled, hkeys]
      split
      next heq => exact .inr (by rw [heq])
      next => exact hgrow.carried instr hgone

theorem filed_carryOver {fresh : InstrumentRegistry}
    {entry : InstrumentKey × (InstrumentId × Metadata)} {instr : InstrumentKey}
    (hfiled : fresh.byInstrument.get instr ≠ none ∨ entry.1 = instr) :
    (cur.carryOver fresh entry).byInstrument.get instr ≠ none := by
  cases hnew : fresh.byInstrument.get entry.1 with
  | some found =>
    rw [carryOver_of_filed hnew]
    rcases hfiled with hfiled | rfl
    · exact hfiled
    · simp [hnew]
  | none =>
    rw [byInstrument_carryOver hnew]
    split
    next => simp
    next hne => exact hfiled.resolve_right hne

theorem Growing.foldl (hgrow : cur.Growing other fresh)
    (rows : List (InstrumentKey × (InstrumentId × Metadata))) :
    cur.Growing other (rows.foldl cur.carryOver fresh) ∧
      ∀ instr, (fresh.byInstrument.get instr ≠ none ∨
          instr ∈ rows.map Prod.fst) →
        (rows.foldl cur.carryOver fresh).byInstrument.get instr ≠ none := by
  induction rows generalizing fresh with
  | nil => exact ⟨hgrow, fun instr hfiled ↦ hfiled.resolve_right (by simp)⟩
  | cons entry rest ih =>
    obtain ⟨hend, hfiled⟩ := ih (hgrow.carryOver entry)
    refine ⟨hend, fun instr hinstr ↦ hfiled instr ?_⟩
    rcases hinstr with hnew | hmem
    · exact .inl (filed_carryOver (.inl hnew))
    · rcases mem_cons.1 hmem with rfl | hrest
      · exact .inl (filed_carryOver (.inr rfl))
      · exact .inr hrest

variable {upper : String → String}

theorem noReuse_of_reversible (hcur : cur.Sound) (hother : other.Sound)
    (hreversible : (cur.reloaded other).Reversible upper) : cur.NoReuse other := by
  intro instr hgone key hkey
  have hstart : cur.Growing other other := by
    exact ⟨fun _ _ hlook ↦ hlook, fun _ ↦ hother.keysOf_eq_nil, fun _ hgone ↦ .inl hgone⟩
  obtain ⟨hend, hfiled⟩ := hstart.foldl cur.byInstrument.entries
  obtain ⟨entry, hent⟩ := hcur.filed instr key hkey
  have hlist : (cur.reloaded other).keysOf instr = cur.keysOf instr := by
    refine (hend.carried instr hgone).resolve_left (hfiled instr (.inr ?_))
    exact mem_map_of_mem (mem_of_lookupEntries hent)
  cases htaken : other.lookup key with
  | none => rfl
  | some taken =>
    have hlook : (cur.reloaded other).lookup key = some taken := hend.lookup key taken htaken
    have hfix := hreversible.listed instr key (hlist ▸ hkey)
    have hleads := @resolves_of_lookup upper _ _ _ (hcur.stripped instr key hkey) hlook
    have hsame := some.inj (hleads.symm.trans hfix)
    have hlistedOther := (hother.mem_keysOf_iff taken key).2 htaken
    obtain ⟨found, hfind⟩ := hother.filed taken key hlistedOther
    rw [hsame, hgone] at hfind
    cases hfind

end

variable {c : Char}

theorem notSpace_of_isNumeral (hnumeral : Decimal.isNumeral c = true) : isSpace c = false := by
  rcases Bool.or_eq_true_iff.1 hnumeral with hdigit | hsign
  · exact isSpace_eq_false_of_isDigit hdigit
  · rw [decide_eq_true_eq] at hsign
    have hsolid : isSolid ['-', '.', '+', 'E'] = true := by decide
    exact notSpace_of_isSolid hsolid c hsign

theorem notSpace_of_mem_right {right : Right} (hc : c ∈ right.value.toList) :
    isSpace c = false := by
  have hsolid : isSolid right.value.toList = true := by cases right <;> decide
  exact notSpace_of_isSolid hsolid c hc

variable {instr : InstrumentId}

theorem notSpace_of_mem_keySuffix (hc : c ∈ keySuffix instr) : isSpace c = false := by
  have hpart : ∀ {Item : Type} (item : Option Item) (chars : Item → List Char),
      (∀ val, ∀ c ∈ chars val, isSpace c = false) →
      c ∈ (item.elim [] fun val ↦ ':' :: chars val) → isSpace c = false := by
    intro Item item chars hchars hmem
    cases item with
    | none => cases hmem
    | some val =>
      rcases mem_cons.1 hmem with rfl | hmem
      · decide
      · exact hchars val c hmem
  rcases mem_append.1 hc with hexpiry | hrest
  · exact hpart _ Date.compact
      (fun _ _ h ↦ isSpace_eq_false_of_isDigit (Date.isDigit_of_mem_compact h)) hexpiry
  · rcases mem_append.1 hrest with hstrike | hright
    · exact hpart _ Decimal.chars
        (fun _ _ h ↦ notSpace_of_isNumeral (Decimal.isNumeral_of_mem_chars h)) hstrike
    · exact hpart _ (fun right : Right ↦ right.value.toList) (fun _ _ h ↦ notSpace_of_mem_right h) hright

variable {name : String}

theorem notSpace_of_mem_tag {tag : String} (htag : tagByAssetClass.get name = some tag) :
    ∀ c ∈ tag.toList, isSpace c = false := by
  have hrows : ∀ entry ∈ tagByAssetClass.entries, isSolid entry.2.toList = true := by decide
  exact notSpace_of_isSolid (hrows (name, tag) (mem_of_lookupEntries htag))

theorem notSpace_of_mem_getD {fallback : String}
    (hfallback : ∀ c ∈ fallback.toList, isSpace c = false) :
    ∀ c ∈ ((tagByAssetClass.get name).getD fallback).toList, isSpace c = false := by
  cases htag : tagByAssetClass.get name with
  | none => exact hfallback
  | some tag => exact notSpace_of_mem_tag htag

variable {data : Metadata}

theorem strip_defaultKey {upper : String → String} :
    strip (defaultKey upper instr data) = defaultKey upper instr data := by
  have hclass : ∀ c ∈ (tagFromId instr).toList, isSpace c = false :=
    notSpace_of_mem_getD (notSpace_of_isSolid (by decide))
  apply strip_of_stripped
  rw [defaultKey, keyOf, String.toList_ofList]
  refine stripped_append instr.exchange_stripped.head ?_ (by simp) ?_
  · intro c hc
    rcases mem_append.1 hc with hc | hc
    · rcases mem_cons.1 hc with rfl | hc
      · decide
      · exact notSpace_of_mem_getD hclass c hc
    · rw [mem_singleton.1 hc]
      decide
  · intro c hc
    rw [getLast?_append, mem_def, or_eq_some_iff] at hc
    rcases hc with hc | ⟨-, hc⟩
    · exact notSpace_of_mem_keySuffix (mem_of_getLast? hc)
    · exact instr.underlying_stripped.last c hc

section Run

variable (upper : String → String)

def Call.Meets (reg : InstrumentRegistry) : Call → Prop
  | .register _ data => ∀ val ∈ data.get "key", val.truthy = true → strip val.str = val.str
  | .registerAuthoritative _ key _ => strip key = key
  | .addAlias _ _ => True
  | .replaceAll other => reg.NoReuse other

inductive Built : InstrumentRegistry → Prop
  | empty : Built empty
  | call {registry : InstrumentRegistry} (call : Call) (hbuilt : Built registry)
      (hother : ∀ other, call = .replaceAll other → Built other)
      (hmeets : (registry.call upper call).1 = .ok () → call.Meets registry) :
      Built (registry.call upper call).2

variable {upper}

theorem strip_requestedKey
    (hkey : ∀ val ∈ data.get "key", val.truthy = true → strip val.str = val.str) :
    strip (requestedKey upper instr data) = requestedKey upper instr data := by
  unfold requestedKey
  split
  next val hval =>
    split
    next htruthy => exact hkey val hval htruthy
    next => exact strip_defaultKey
  next => exact strip_defaultKey

variable {reg : InstrumentRegistry}

theorem call_of_error {call : Call} {err : String}
    (hraise : reg.call upper call = (.error err, after)) : after = reg := by
  cases call with
  | register instr data =>
    simp only [InstrumentRegistry.call, register, put] at hraise
    split at hraise
    next => exact (Prod.mk.inj hraise).2.symm
    next => cases hraise
  | registerAuthoritative instr key data =>
    simp only [InstrumentRegistry.call, registerAuthoritative, replace] at hraise
    split at hraise
    next => exact (Prod.mk.inj hraise).2.symm
    next => cases hraise
  | addAlias name instr | replaceAll other => cases hraise

theorem Built.sound (hbuilt : Built upper reg) : reg.Sound := by
  induction hbuilt with
  | empty => constructor <;> simp [InstrumentRegistry.empty, keysOf, lookup]
  | @call reg call hbuilt hother hmeets ih ihOther =>
    cases hres : (reg.call upper call).1 with
    | error err =>
      have hsame : (reg.call upper call).2 = reg := call_of_error (Prod.ext hres rfl)
      rw [hsame]
      exact ih
    | ok _ =>
      have hcond := hmeets hres
      cases call with
      | register instr data => exact ih.put (strip_requestedKey hcond)
      | registerAuthoritative instr key data => exact ih.replace hcond
      | addAlias name instr =>
        exact ⟨ih.mem_keysOf_iff, ih.primary, ih.filed, ih.filedUnder, ih.stripped⟩
      | replaceAll other => exact ih.reloaded (ihOther other rfl) hcond

/-- A registry built with trimmed keys resolves each key it lists to the same instrument; a reload
keeps this exactly when it reuses no carried key. -/
theorem built_reversible {reg : InstrumentRegistry} (hbuilt : Built upper reg) :
    reg.Reversible upper ∧
      (∀ call err after, reg.call upper call = (.error err, after) → after = reg) ∧
      ∀ other, Built upper other →
        ((reg.reloaded other).Reversible upper ↔ reg.NoReuse other) :=
  ⟨hbuilt.sound.reversible, fun _ _ _ hrsd ↦ call_of_error hrsd,
    fun _ hother ↦ ⟨noReuse_of_reversible hbuilt.sound hother.sound,
      fun hreuse ↦ (hbuilt.sound.reloaded hother.sound hreuse).reversible⟩⟩

end Run

def listed (underlying : String) (hstrip : Stripped underlying.toList) : InstrumentId where
  exchange := "NSE"
  underlying := underlying
  exchange_stripped := stripped_of_isSolid (by decide)
  underlying_stripped := hstrip

def delisted : InstrumentId := listed "OLDCO" (stripped_of_isSolid (by decide))

def relisted : InstrumentId := listed "NEWCO" (stripped_of_isSolid (by decide))

def masterOf (instr : InstrumentId) (key : String) : InstrumentRegistry :=
  (empty.call id (.registerAuthoritative instr key none)).2

theorem built_masterOf (hstrip : strip key = key) : Built id (masterOf instr key) := by
  refine Built.call _ .empty (fun other hother ↦ ?_) (fun _ ↦ hstrip)
  cases hother

theorem lookup_masterOf :
    (masterOf instr key).lookup other =
      if key = other then some instr.key else none := by
  have hbyKey : (masterOf instr key).byKey = Dict.empty.set key instr := rfl
  rw [lookup, hbyKey, Dict.get_set]
  split <;> rfl

theorem reused_key_resolves_to_other :
    let reloaded := (masterOf delisted "500325").reloaded (masterOf relisted "500325")
    (reloaded.providerKey delisted = some "500325" ∧
      reloaded.Resolves id "500325" relisted.key ∧ relisted.key ≠ delisted.key) ∧
    (masterOf delisted " 500325").providerKey delisted = some " 500325" ∧
      (masterOf delisted " 500325").resolve id " 500325" = none := by
  refine ⟨⟨by decide +kernel, ?_, by decide +kernel⟩, by decide +kernel, ?_⟩
  · unfold Resolves
    decide +kernel
  · exact isNone_iff_eq_none.1 (by decide +kernel)

theorem fresh_key_reversible :
    ((masterOf delisted "500325").reloaded (masterOf relisted "540777")).Reversible id := by
  have hold : Built id (masterOf delisted "500325") := built_masterOf (by decide +kernel)
  have hfresh : Built id (masterOf relisted "540777") := built_masterOf (by decide +kernel)
  have hreuse : (masterOf delisted "500325").NoReuse (masterOf relisted "540777") := by
    intro instr _ key hkey
    have hlookup := (hold.sound.mem_keysOf_iff instr key).1 hkey
    rw [lookup_masterOf] at hlookup ⊢
    split at hlookup
    next hsame => rw [← hsame, if_neg (by decide)]
    next => cases hlookup
  exact (built_reversible (.call (.replaceAll (masterOf relisted "540777")) hold
    (fun other hother ↦ by cases hother; exact hfresh) fun _ ↦ hreuse)).1

end InstrumentRegistry

end Tradex.Domain
