import Mathlib
import Tradex.Execution.EventStore
import Tradex.Foundation.Outcome

/-!
# What a replay notices

An altered log that ends in the honest digest and replays to its end is the honest log
without some of its first rows, provided that every row carries a schema version that
this build hashes.
-/

namespace Tradex.Execution.EventStore

open EventRow List

theorem plain_toString_nat {num : ℕ} : Plain (toString num) := by
  intro hmem
  rw [Nat.toString_eq_repr, Nat.toList_repr] at hmem
  have hdigit : separator.isDigit = true := Nat.isDigit_of_mem_toDigits (by decide) (by decide) hmem
  exact absurd hdigit (by decide)

theorem plain_toString_int {num : ℤ} : Plain (toString num) := by
  rw [Int.toString_eq_repr, Int.repr_eq_if]
  split
  · exact plain_toString_nat
  · intro hmem
    rw [String.toList_append, mem_append] at hmem
    rcases hmem with hsign | hdig
    · exact absurd hsign (by decide)
    · exact plain_toString_nat hdig

def EventRow.asHashed (row : EventRow) : EventRow :=
  { row with correlationId := some (row.correlationId.getD "") }

def EventRow.Plain (row : EventRow) : Prop :=
  ∀ text ∈ [row.streamId, row.eventType, row.eventId, row.payload, row.createdAt,
    row.prevHash.getD ""], EventStore.Plain text

instance (row : EventRow) : Decidable row.Plain := inferInstanceAs (Decidable (∀ _ ∈ _, _))

variable {prevHash : String} {row : EventRow} {text : List Char}

theorem toList_hashText : (hashText row prevHash).toList = intercalate [separator]
      ([(toString row.sequence).toList, row.streamId.toList, row.eventType.toList,
          row.eventId.toList] ++
        (row.correlationId.getD "").toList :: [row.payload.toList, row.createdAt.toList,
          (toString row.schemaVersion).toList, prevHash.toList]) := by
  rw [hashText, String.toList_intercalate]
  rfl

theorem separator_notMem_fields (hplain : row.Plain) (hprev : row.prevHash = some prevHash) :
    ∀ field ∈ [(toString row.sequence).toList, row.streamId.toList, row.eventType.toList,
        row.eventId.toList] ++
      [row.payload.toList, row.createdAt.toList, (toString row.schemaVersion).toList,
        prevHash.toList], separator ∉ field := by
  intro field hfield
  have hprevPlain : Plain (row.prevHash.getD "") := hplain _ (by simp)
  rw [hprev] at hprevPlain
  simp only [cons_append, nil_append, mem_cons, not_mem_nil, or_false] at hfield
  rcases hfield with rfl | rfl | rfl | rfl | rfl | rfl | rfl | rfl
  · exact plain_toString_nat
  · exact hplain row.streamId (by simp)
  · exact hplain row.eventType (by simp)
  · exact hplain row.eventId (by simp)
  · exact hplain row.payload (by simp)
  · exact hplain row.createdAt (by simp)
  · exact plain_toString_int
  · exact hprevPlain

variable {row other : EventRow}

theorem asHashed_of_hashText {prevHash prevHash' : String} (hrow : row.Plain)
    (hother : other.Plain) (hprev : row.prevHash = some prevHash)
    (hprev' : other.prevHash = some prevHash') (hown : row.eventHash = other.eventHash)
    (htext : hashText row prevHash = hashText other prevHash') : row.asHashed = other.asHashed := by
  have hlists := congrArg String.toList htext
  rw [toList_hashText, toList_hashText] at hlists
  obtain ⟨hfront, hcid, hback⟩ := intercalate_middle_inj (by rfl) (by rfl)
    (separator_notMem_fields hrow hprev) (separator_notMem_fields hother hprev') hlists
  simp only [cons.injEq, String.toList_inj, and_true] at hfront hback
  obtain ⟨hsequence, hstream, htype, hid⟩ := hfront
  obtain ⟨hpay, hcreated, hver, hprevs⟩ := hback
  rw [Nat.toString_eq_repr, Nat.toString_eq_repr, Nat.repr_inj] at hsequence
  rw [Int.toString_eq_repr, Int.toString_eq_repr, Int.repr_inj] at hver
  rw [String.toList_inj] at hcid
  have hprevHashes : row.prevHash = other.prevHash := by rw [hprev, hprev', hprevs]
  simp only [asHashed, mk.injEq]
  exact ⟨hsequence, hstream, htype, hid, congrArg some hcid, hpay, hcreated,
    hver, hprevHashes, hown⟩

theorem rowHash_eq {sha : Sha256} :
    rowHash sha row prevHash = sha.hexdigest (hashText row prevHash) := by
  exact ite_self _

variable {rows : List EventRow}

section

variable {Event : Type} {store : Store Event} {stream : String} {afterSequence : Option ℕ}

def Intact (sha : Sha256) (row : EventRow) : Prop :=
  ∃ prevHash eventHash, row.prevHash = some prevHash ∧ row.eventHash = some eventHash ∧
    (row.schemaVersion ∈ decoders → rowHash sha row prevHash = eventHash)

abbrev Linked (rows : List EventRow) : Prop :=
  HashChain.Linked EventRow.eventHash EventRow.prevHash rows

variable {previousHash : Option String} {events : List Event}

theorem verifyRow_eq_ok {eventHash : String} :
    verifyRow store previousHash row = .ok eventHash ↔
      row.eventHash = some eventHash ∧ Intact store.sha row ∧
        ∀ hash ∈ previousHash, row.prevHash = some hash := by
  unfold verifyRow Intact
  cases hown : row.eventHash with
  | none => simp
  | some own =>
    cases hprev : row.prevHash with
    | none => simp
    | some prevHash =>
      -- The link is compared only behind another row.
      have hlink : ((previousHash.getD prevHash) ≠ prevHash) ↔
          ¬∀ hash ∈ previousHash, some prevHash = some hash := by
        cases previousHash with
        | none => simp
        | some hash => simp [eq_comm]
      have hmod : (row.schemaVersion ∈ decoders ∧ rowHash store.sha row prevHash ≠ own) ↔
          ¬(row.schemaVersion ∈ decoders → rowHash store.sha row prevHash = own) := by
        simp
      simp only
      split_ifs <;> grind

def decodeRow (store : Store Event) (row : EventRow) : Except StoreError Event :=
  decode store row.payload row.schemaVersion

theorem replayFrom_cons_eq_ok {rest : List EventRow} :
    replayFrom store stream afterSequence previousHash (row :: rest) = .ok events ↔
      ∃ eventHash more, verifyRow store previousHash row = .ok eventHash ∧
        replayFrom store stream afterSequence (some eventHash) rest = .ok more ∧
        if wanted stream afterSequence row then
          ∃ ev, decodeRow store row = .ok ev ∧ events = ev :: more
        else events = more := by
  rw [replayFrom, except_bind_eq_ok_iff]
  apply exists_congr
  intro eventHash
  by_cases hwant : wanted stream afterSequence row = true
  · simp only [if_pos hwant, except_bind_eq_ok_iff]
    constructor
    · rintro ⟨hverif, ev, hev, more, hmore, heq⟩
      exact ⟨more, hverif, hmore, ev, hev, (Except.ok.inj heq).symm⟩
    · rintro ⟨more, hverif, hmore, ev, hev, rfl⟩
      exact ⟨hverif, ev, hev, more, hmore, rfl⟩
  · simp only [if_neg hwant]
    constructor
    · rintro ⟨hverif, hmore⟩
      exact ⟨events, hverif, hmore, rfl⟩
    · rintro ⟨more, hverif, hmore, rfl⟩
      exact ⟨hverif, hmore⟩

theorem replayFrom_eq_mapM (hintact : ∀ row ∈ rows, Intact store.sha row) (hlink : Linked rows)
    (hhead : ∀ hash ∈ previousHash, ∀ row ∈ rows.head?, row.prevHash = some hash) :
    replayFrom store stream afterSequence previousHash rows =
      (rows.filter (wanted stream afterSequence)).mapM (decodeRow store) := by
  induction rows generalizing previousHash with
  | nil => rfl
  | cons row rest ih =>
    obtain ⟨hrow, hrest⟩ := forall_mem_cons.mp hintact
    obtain ⟨hnext, hlink⟩ := isChain_cons.mp hlink
    obtain ⟨prevHash, eventHash, hprev, hown, hright⟩ := hrow
    have hverified : verifyRow store previousHash row = .ok eventHash :=
      verifyRow_eq_ok.mpr ⟨hown, ⟨prevHash, eventHash, hprev, hown, hright⟩,
        fun hash hhash ↦ hhead hash hhash row rfl⟩
    have hback : ∀ hash ∈ some eventHash, ∀ next ∈ rest.head?, next.prevHash = some hash := by
      rintro _ ⟨⟩ next hmem
      rw [hnext next hmem, hown]
    rw [replayFrom, hverified, filter_cons]
    simp only [bind, Except.bind, ih hrest hlink hback]
    split
    · rw [mapM_cons]
      rfl
    · rfl

theorem replayFrom_eq_ok :
    replayFrom store stream afterSequence previousHash rows = .ok events ↔
      (∀ row ∈ rows, Intact store.sha row) ∧ Linked rows ∧
        (∀ hash ∈ previousHash, ∀ row ∈ rows.head?, row.prevHash = some hash) ∧
        (rows.filter (wanted stream afterSequence)).map (decodeRow store) = events.map .ok := by
  induction rows generalizing previousHash events with
  | nil =>
    cases events with
    | nil => simp [replayFrom, HashChain.Linked, pure, Except.pure]
    | cons ev events => simp [replayFrom, pure, Except.pure]
  | cons row rest ih =>
    rw [replayFrom_cons_eq_ok]
    simp only [verifyRow_eq_ok, ih]
    constructor
    · rintro ⟨eventHash, more, ⟨hown, hintact, hlink⟩, ⟨hrest, hlinked, hhead, hdec⟩, hevs⟩
      refine ⟨forall_mem_cons.mpr ⟨hintact, hrest⟩, ?_, ?_, ?_⟩
      · refine isChain_cons.mpr ⟨fun next hnext ↦ ?_, hlinked⟩
        rw [hown]
        exact hhead eventHash rfl next hnext
      · rintro hash hhash _ ⟨⟩
        exact hlink hash hhash
      · by_cases hwant : wanted stream afterSequence row = true
        · rw [if_pos hwant] at hevs
          obtain ⟨ev, hev, rfl⟩ := hevs
          rw [filter_cons_of_pos hwant, map_cons, hev, hdec, map_cons]
        · rw [if_neg hwant] at hevs
          rw [filter_cons_of_neg hwant, hdec, hevs]
    · rintro ⟨hintact, hlinked, hhead, hdec⟩
      obtain ⟨hrow, hrest⟩ := forall_mem_cons.mp hintact
      obtain ⟨hnext, hlinked⟩ := isChain_cons.mp hlinked
      obtain ⟨prevHash, eventHash, hprev, hown, hright⟩ := hrow
      have hback : ∀ hash ∈ some eventHash, ∀ next ∈ rest.head?, next.prevHash = some hash := by
        rintro _ ⟨⟩ next hmem
        rw [hnext next hmem, hown]
      have hfst : ∀ hash ∈ previousHash, row.prevHash = some hash :=
        fun hash hhash ↦ hhead hash hhash row rfl
      have hverif := And.intro hown
        (And.intro (show Intact store.sha row from ⟨prevHash, eventHash, hprev, hown, hright⟩) hfst)
      by_cases hwant : wanted stream afterSequence row = true
      · rw [filter_cons_of_pos hwant] at hdec
        cases events with
        | nil => cases hdec
        | cons ev more =>
          obtain ⟨hev, hmore⟩ := cons.inj hdec
          exact ⟨eventHash, more, hverif, ⟨hrest, hlinked, hback, hmore⟩,
            by rw [if_pos hwant]; exact ⟨ev, hev, rfl⟩⟩
      · rw [filter_cons_of_neg hwant] at hdec
        exact ⟨eventHash, events, hverif, ⟨hrest, hlinked, hback, hdec⟩,
          by rw [if_neg hwant]⟩

end

section

variable {Event : Type} {store : Store Event}

structure Sealed (store : Store Event) (row : EventRow) : Prop where
  hashed : ∃ prevHash, row.prevHash = some prevHash ∧ Plain prevHash ∧
    row.eventHash = some (rowHash store.sha row prevHash)
  version : row.schemaVersion = schemaVersion
  texts : ∀ text ∈ [row.eventType, row.eventId, row.payload, row.createdAt], Plain text

theorem Sealed.intact (hseal : Sealed store row) : Intact store.sha row := by
  obtain ⟨prevHash, hprev, -, hown⟩ := hseal.hashed
  exact ⟨prevHash, _, hprev, hown, fun _ ↦ rfl⟩

theorem Sealed.plain (hseal : Sealed store row) (hstream : Plain row.streamId) : row.Plain := by
  obtain ⟨prevHash, hprev, hplain, -⟩ := hseal.hashed
  intro text htext
  rw [hprev] at htext
  simp only [mem_cons, not_mem_nil, or_false] at htext
  rcases htext with rfl | rfl | rfl | rfl | rfl | rfl
  · exact hstream
  · exact hseal.texts row.eventType (by simp)
  · exact hseal.texts row.eventId (by simp)
  · exact hseal.texts row.payload (by simp)
  · exact hseal.texts row.createdAt (by simp)
  · exact hplain

variable {entries : List (Appended Event)} {afterSequence : Option ℕ}

theorem log_snoc {appended : Appended Event} :
    log store (entries ++ [appended]) = append store (log store entries) appended := by
  rw [log, foldl_append]
  rfl

theorem plain_headHash (hrows : ∀ row ∈ rows, Sealed store row) : Plain (headHash rows) := by
  unfold headHash
  cases hlast : rows.getLast? with
  | none => decide
  | some row =>
    obtain ⟨prevHash, -, -, hown⟩ := (hrows row (mem_of_getLast? hlast)).hashed
    rw [Option.bind_some, hown, rowHash_eq]
    exact store.sha.plain _

theorem sealed_log : ∀ row ∈ log store entries, Sealed store row := by
  induction entries using reverseRecOn with
  | nil => exact nofun
  | append_singleton entries appended ih =>
    rw [log_snoc, append, forall_mem_append]
    refine ⟨ih, forall_mem_singleton.mpr ⟨⟨_, rfl, plain_headHash ih, rfl⟩, rfl, ?_⟩⟩
    intro text htext
    simp only [mem_cons, not_mem_nil, or_false] at htext
    rcases htext with rfl | rfl | rfl | rfl
    · exact store.format.className_plain _
    · exact appended.eventId_plain
    · exact store.format.encode_plain _
    · exact appended.createdAt_plain

theorem linked_log (entries : List (Appended Event)) : Linked (log store entries) := by
  induction entries using reverseRecOn with
  | nil => exact isChain_nil
  | append_singleton entries appended ih =>
    rw [log_snoc]
    apply HashChain.linked_snoc ih
    intro prior hprior
    obtain ⟨prevHash, -, -, hown⟩ := (sealed_log prior (mem_of_getLast? hprior)).hashed
    change some (headHash (log store entries)) = prior.eventHash
    rw [headHash, Option.mem_def.mp hprior, Option.bind_some, hown, Option.getD_some]

/-- What the payload of an appended event reads back as. -/
def reread (store : Store Event) (entry : Appended Event) : Except StoreError Event :=
  decode store (store.format.encode entry.event) schemaVersion

def ReadsBack (store : Store Event) (entry : Appended Event) : Prop :=
  store.format.decode (store.format.encode entry.event) = some entry.event

theorem reread_of_readsBack {entry : Appended Event} (hreads : ReadsBack store entry) :
    reread store entry = .ok entry.event := by
  rw [reread, decode, if_pos (by decide), hreads]

theorem map_decodeRow_log :
    (log store entries).map (decodeRow store) = entries.map (reread store) := by
  induction entries using reverseRecOn with
  | nil => rfl
  | append_singleton entries appended ih =>
    rw [log_snoc, append, map_append, map_append, ih]
    rfl

theorem exists_map_ok {Error Item Value : Type} {read : Item → Except Error Value}
    {items : List Item} (hitems : ∀ item ∈ items, ∃ val, read item = .ok val) :
    ∃ vals : List Value, items.map read = vals.map .ok := by
  induction items with
  | nil => exact ⟨[], rfl⟩
  | cons item items ih =>
    obtain ⟨⟨val, hval⟩, hitems⟩ := forall_mem_cons.mp hitems
    obtain ⟨vals, hvals⟩ := ih hitems
    exact ⟨val :: vals, by rw [map_cons, hval, hvals, map_cons]⟩

theorem replay_log_eq_ok {stream : String} {events : List Event}
    (hevs : ((log store entries).filter (wanted stream afterSequence)).map (decodeRow store) =
      events.map .ok) : replay store (log store entries) stream afterSequence = .ok events :=
  replayFrom_eq_ok.mpr ⟨fun row hrow ↦ (sealed_log row hrow).intact, linked_log entries,
    nofun, hevs⟩

theorem exists_replay_log {store : Store Event} {stream : String}
    (hreads : ∀ entry ∈ entries, ReadsBack store entry) :
    ∃ events, replay store (log store entries) stream afterSequence = .ok events := by
  have hdec : ∀ row ∈ (log store entries).filter (wanted stream afterSequence),
      ∃ ev, decodeRow store row = .ok ev := by
    intro row hrow
    have hmem := mem_map_of_mem (f := decodeRow store) (mem_of_mem_filter hrow)
    rw [map_decodeRow_log] at hmem
    obtain ⟨entry, hmem, hent⟩ := mem_map.mp hmem
    exact ⟨entry.event, hent.symm.trans (reread_of_readsBack (hreads entry hmem))⟩
  obtain ⟨events, hevs⟩ := exists_map_ok hdec
  exact ⟨events, replay_log_eq_ok hevs⟩

end

section

variable {Event : Type} {store : Store Event} {entries : List (Appended Event)}
  {altered : List EventRow} {stream : String} {afterSequence : Option ℕ}

def Checkable (altered honest : List EventRow) : Prop :=
  (∀ row ∈ altered, row.schemaVersion ∈ decoders ∧ row.Plain) ∧ altered.length ≤ honest.length

theorem yielded_asHashed :
    ((rows.map asHashed).filter (wanted stream afterSequence)).map (decodeRow store) =
      (rows.filter (wanted stream afterSequence)).map (decodeRow store) := by
  rw [filter_map, map_map]
  rfl

theorem suffix_of_map_ok {Error Value : Type} {vals others : List Value}
    (hsfx : vals.map (Except.ok (ε := Error)) <:+ others.map Except.ok) :
    vals <:+ others := by
  have hread := hsfx.filterMap Except.toOption
  simpa [Function.comp_def, Except.toOption] using hread

theorem asHashed_of_eventHash (hrow : Intact store.sha row)
    (hver : row.schemaVersion ∈ decoders) (hplain : row.Plain) (hother : Sealed store other)
    (hstream : Plain other.streamId) (hown : row.eventHash = other.eventHash) :
    row.asHashed = other.asHashed := by
  obtain ⟨prevHash, eventHash, hprev, hhash, hright⟩ := hrow
  obtain ⟨prevHash', hprev', -, hhash'⟩ := hother.hashed
  have hdigests : store.sha.hexdigest (hashText row prevHash) =
      store.sha.hexdigest (hashText other prevHash') := by
    rw [← rowHash_eq, ← rowHash_eq, hright hver]
    exact Option.some.inj (hhash.symm.trans (hown.trans hhash'))
  exact asHashed_of_hashText hplain (hother.plain hstream) hprev hprev' hown
    (store.sha.injective hdigests)

theorem checkable_of_suffix (hstreams : ∀ row ∈ log store entries, Plain row.streamId)
    (hsfx : altered.map EventRow.asHashed <:+ (log store entries).map EventRow.asHashed) :
    Checkable altered (log store entries) := by
  constructor
  · intro row hrow
    obtain ⟨other, hother, heq⟩ := mem_map.mp (hsfx.subset (mem_map_of_mem hrow))
    have hseal := sealed_log other hother
    have hplain := hseal.plain (hstreams other hother)
    have hversions : other.asHashed.schemaVersion = row.asHashed.schemaVersion :=
      congrArg EventRow.schemaVersion heq
    have hver : row.schemaVersion = schemaVersion := hversions.symm.trans hseal.version
    refine ⟨by rw [hver]; decide, ?_⟩
    have hplains : other.asHashed.Plain := hplain
    rw [heq] at hplains
    exact hplains
  · simpa using hsfx.length_le

/-- An altered log that ends in the honest digest is a suffix of the honest one exactly when its
rows can be checked. -/
theorem alterations_noticed_iff (hreads : ∀ entry ∈ entries, ReadsBack store entry)
    (hstreams : ∀ row ∈ log store entries, Plain row.streamId)
    (hlast : (altered.getLast?).bind EventRow.eventHash =
      ((log store entries).getLast?).bind EventRow.eventHash)
    {events : List Event} (hrep : replay store altered stream afterSequence = .ok events) :
    ∃ honest, replay store (log store entries) stream afterSequence = .ok honest ∧
      (altered.map EventRow.asHashed <:+ (log store entries).map EventRow.asHashed ∧
          events <:+ honest ↔
        Checkable altered (log store entries)) := by
  obtain ⟨honest, hhonest⟩ := exists_replay_log hreads
  refine ⟨honest, hhonest, fun hsfx ↦ checkable_of_suffix hstreams hsfx.1, ?_⟩
  rintro ⟨hrows, hlength⟩
  obtain ⟨hintact, hlinked, -, hdecoded⟩ := replayFrom_eq_ok.mp hrep
  obtain ⟨-, -, -, hdecoded'⟩ := replayFrom_eq_ok.mp hhonest
  have hsfx : altered.map asHashed <:+ (log store entries).map asHashed := by
    apply HashChain.map_suffix_of_linked _ hlinked (linked_log entries) _ hlength
    · intro row hrow other hother hown
      have halike := asHashed_of_eventHash (hintact row hrow) (hrows row hrow).1 (hrows row hrow).2
        (sealed_log other hother) (hstreams other hother) hown
      have hprevious : row.asHashed.prevHash = other.asHashed.prevHash :=
        congrArg prevHash halike
      exact ⟨halike, hprevious⟩
    · intro row hrow other hother
      rw [Option.mem_def.mp hrow, Option.mem_def.mp hother] at hlast
      exact hlast
  have hyielded := (hsfx.filter (wanted stream afterSequence)).map (decodeRow store)
  rw [yielded_asHashed, yielded_asHashed, hdecoded, hdecoded'] at hyielded
  exact ⟨hsfx, suffix_of_map_ok hyielded⟩

theorem replay_hidden {front back : List EventRow} {hidden : EventRow}
    (hlog : log store entries = front ++ row :: back) (hprev : hidden.prevHash = row.prevHash)
    (hown : hidden.eventHash = row.eventHash) (hver : hidden.schemaVersion ∉ decoders)
    (hunwanted : wanted stream afterSequence hidden = false) {events : List Event}
    (hevs : ((front ++ back).filter (wanted stream afterSequence)).map (decodeRow store) =
      events.map .ok) :
    replay store (front ++ hidden :: back) stream afterSequence = .ok events := by
  have hseal : ∀ row ∈ log store entries, Sealed store row := sealed_log
  have hlink : Linked (log store entries) := linked_log entries
  rw [hlog] at hseal hlink
  refine replayFrom_eq_ok.mpr ⟨?_, ?_, nofun, ?_⟩
  · intro other hother
    rcases mem_append.mp hother with hfront | hback
    · exact (hseal other (mem_append_left _ hfront)).intact
    · rcases mem_cons.mp hback with rfl | hback
      · obtain ⟨prevHash, eventHash, hprev', hown', -⟩ := (hseal row (by simp)).intact
        exact ⟨prevHash, eventHash, hprev.trans hprev', hown.trans hown',
          fun hknown ↦ absurd hknown hver⟩
      · exact (hseal other (by simp [hback])).intact
  · -- Only the two digests of the row matter to its neighbours.
    have hmapped : Linked (front ++ hidden :: back) ↔ Linked (front ++ row :: back) := by
      unfold Linked HashChain.Linked
      simp [isChain_append, isChain_cons, hprev, hown]
    exact hmapped.mpr hlink
  · rw [filter_append, filter_cons_of_neg (by simp [hunwanted]), ← filter_append]
    exact hevs

end

def escape : List Char → List Char
  | [] => []
  | symbol :: rest =>
    if symbol = separator then 'e' :: 's' :: escape rest
    else if symbol = 'e' then 'e' :: 'e' :: escape rest
    else symbol :: escape rest

def unescape : List Char → List Char
  | 'e' :: 's' :: rest => separator :: unescape rest
  | 'e' :: 'e' :: rest => 'e' :: unescape rest
  | symbol :: rest => symbol :: unescape rest
  | [] => []

theorem unescape_escape : unescape (escape text) = text := by
  induction text with
  | nil => rfl
  | cons symbol rest ih =>
    unfold escape
    split_ifs with hsep he
    · rw [unescape, ih, hsep]
    · rw [unescape, ih, he]
    · rw [unescape] <;> grind

theorem separator_notMem_escape : separator ∉ escape text := by
  induction text with
  | nil => exact not_mem_nil
  | cons symbol rest ih =>
    unfold escape
    split_ifs with hsep he
    · simpa [separator] using ih
    · simpa [separator] using ih
    · exact not_mem_cons_of_ne_of_not_mem (Ne.symm hsep) ih

theorem escape_injective : Function.Injective fun text : String ↦
    String.ofList (escape text.toList) := by
  intro text other heq
  have hlists := congrArg unescape (String.ofList_injective heq)
  rw [unescape_escape, unescape_escape] at hlists
  exact String.toList_inj.mp hlists

theorem plain_escape (text : String) : Plain (String.ofList (escape text.toList)) := by
  rw [Plain, String.toList_ofList]
  exact separator_notMem_escape

def escapingSha : Sha256 := ⟨_, escape_injective, plain_escape⟩

def encodeFlag (ev : Bool) : String := if ev then "QQ==" else "Qg=="

def decodeFlag (payload : String) : Option Bool :=
  if payload = "QQ==" then some true else if payload = "Qg==" then some false else none

def flagFormat : EventFormat Bool where
  className := fun _ ↦ "OrderFilled"
  correlationId := fun _ ↦ none
  encode := encodeFlag
  decode := decodeFlag
  className_plain := by decide +kernel
  encode_plain := by decide +kernel

def flagStore : Store Bool := ⟨escapingSha, flagFormat, "PAPER", "acc1"⟩

theorem plain_empty : Plain "" := by decide

def appended (ev : Bool) : Appended Bool := ⟨ev, none, "", "", plain_empty, plain_empty⟩

def firstRow : EventRow := appendedRow flagStore [] (appended true)

def secondRow : EventRow := appendedRow flagStore [firstRow] (appended false)

def thirdRow : EventRow := appendedRow flagStore [firstRow, secondRow] (appended true)

def threeEntries : List (Appended Bool) := [appended true, appended false, appended true]

def hidden (row : EventRow) : EventRow := { row with streamId := "hidden", schemaVersion := 3 }

theorem log_threeEntries : log flagStore threeEntries = [firstRow] ++ secondRow :: [thirdRow] := rfl

theorem hidden_row_unnoticed :
    (([firstRow] ++ hidden secondRow :: [thirdRow]).getLast?).bind EventRow.eventHash =
        ((log flagStore threeEntries).getLast?).bind EventRow.eventHash ∧
      replay flagStore ([firstRow] ++ hidden secondRow :: [thirdRow]) "orders" none =
        .ok [true, true] ∧
      replay flagStore (log flagStore threeEntries) "orders" none = .ok [true, false, true] ∧
      ¬[true, true] <:+ [true, false, true] := by
  refine ⟨rfl, ?_, replay_log_eq_ok (by decide +kernel), by decide⟩
  refine replay_hidden log_threeEntries ?_ ?_ (by decide) (by decide +kernel) (by decide +kernel)
  all_goals rfl

theorem plain_streams : ∀ row ∈ log flagStore threeEntries, Plain row.streamId := by
  decide +kernel

theorem truncated_head_accepted :
    ∃ honest, replay flagStore (log flagStore threeEntries) "orders" none = .ok honest ∧
      [secondRow, thirdRow].map EventRow.asHashed <:+
        (log flagStore threeEntries).map EventRow.asHashed ∧ [false, true] <:+ honest := by
  have hrows : ∀ row ∈ [secondRow, thirdRow], row ∈ log flagStore threeEntries :=
    fun row hrow ↦ mem_cons_of_mem firstRow hrow
  have hrep : replay flagStore [secondRow, thirdRow] "orders" none = .ok [false, true] := by
    refine replayFrom_eq_ok.mpr ⟨fun row hrow ↦ ?_, (linked_log threeEntries).tail, nofun, ?_⟩
    · exact (sealed_log row (hrows row hrow)).intact
    · decide +kernel
  have hlast : ([secondRow, thirdRow].getLast?).bind eventHash =
      ((log flagStore threeEntries).getLast?).bind eventHash := rfl
  have hreads : ∀ entry ∈ threeEntries, ReadsBack flagStore entry := fun entry _ ↦
    (by decide +kernel : ∀ ev, decodeFlag (encodeFlag ev) = some ev) entry.event
  obtain ⟨honest, hhonest, hiff⟩ := alterations_noticed_iff hreads plain_streams hlast hrep
  refine ⟨honest, hhonest, hiff.mpr ⟨fun row hrow ↦ ⟨?_, ?_⟩, by decide⟩⟩
  · rw [(sealed_log row (hrows row hrow)).version]
    decide
  · exact (sealed_log row (hrows row hrow)).plain (plain_streams row (hrows row hrow))

/-! ## What a replay returns -/

section

variable {Event : Type} {store : Store Event} {entries : List (Appended Event)}

def streamOf (store : Store Event) (entry : Appended Event) : String :=
  scopedStream store.brokerId store.accountId
    (entry.streamId.getD (inferStream store entry.event))

theorem nextSequence_log : nextSequence (log store entries) = entries.length + 1 := by
  induction entries using reverseRecOn with
  | nil => rfl
  | append_singleton entries appended ih =>
    rw [log_snoc, append, nextSequence, getLast?_concat, length_append]
    exact congrArg (· + 1) ih

theorem wanted_appendedRow {stream : String} {afterSequence : Option ℕ} {entry : Appended Event} :
    wanted stream afterSequence (appendedRow store (log store entries) entry) =
      (matchesStream (streamOf store entry) stream &&
        decide (afterSequence.getD 0 ≤ entries.length)) := by
  have hnext := @nextSequence_log _ store entries
  cases afterSequence with
  | none => simp [wanted, appendedRow, insertedRow, streamOf]
  | some last => simp [wanted, appendedRow, insertedRow, streamOf, hnext]

/-- The entries that a replay is asked for. -/
def requested (store : Store Event) (entries : List (Appended Event)) (stream : String)
    (afterSequence : Option ℕ) : List (Appended Event) :=
  (entries.drop (afterSequence.getD 0)).filter fun entry ↦
    matchesStream (streamOf store entry) stream

theorem map_wanted_log {stream : String} {afterSequence : Option ℕ} :
    ((log store entries).filter (wanted stream afterSequence)).map (decodeRow store) =
      (requested store entries stream afterSequence).map (reread store) := by
  unfold requested
  induction entries using reverseRecOn with
  | nil => simp [log]
  | append_singleton entries appended ih =>
    rw [log_snoc, append, filter_append, map_append, ih, filter_singleton, wanted_appendedRow,
      drop_append, filter_append, map_append]
    congr 1
    by_cases hlast : afterSequence.getD 0 ≤ entries.length
    · rw [Nat.sub_eq_zero_of_le hlast, drop_zero, filter_singleton]
      simp only [hlast, decide_true, Bool.and_true]
      cases matchesStream (streamOf store appended) stream <;> rfl
    · rw [drop_eq_nil_of_le (by simp; omega)]
      simp [hlast]

/-- A replay of an appended log passes the verification: it reads back the payloads that it is asked
for, in order, up to one that cannot be read, and returns the events if all of them can. -/
theorem replay_log_drop (store : Store Event) (entries : List (Appended Event)) (stream : String)
    (afterSequence : Option ℕ) :
    replay store (log store entries) stream afterSequence =
        (requested store entries stream afterSequence).mapM (reread store) ∧
      ((∀ entry ∈ requested store entries stream afterSequence, ReadsBack store entry) →
        replay store (log store entries) stream afterSequence =
          .ok ((requested store entries stream afterSequence).map Appended.event)) := by
  refine ⟨?_, fun hreads ↦ replay_log_eq_ok ?_⟩
  · have hmapped := congrArg (List.mapM id) (@map_wanted_log _ store entries stream afterSequence)
    simp only [mapM_map, Function.id_comp] at hmapped
    rw [replay, replayFrom_eq_mapM (fun row hrow ↦ (sealed_log row hrow).intact)
      (linked_log entries) (by simp), hmapped]
  · rw [map_wanted_log, map_map]
    exact map_congr_left fun entry hmem ↦ reread_of_readsBack (hreads entry hmem)

end

end Tradex.Execution.EventStore
