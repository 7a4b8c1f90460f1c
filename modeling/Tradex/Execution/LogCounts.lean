import Tradex.Execution.TamperEvidence

/-!
# Counts of a log

The queries for a bare stream name read the rows stored under that name alone if there is one, and
otherwise every row whose name matches a pattern; the replay reads the rows with that last part.
-/

namespace Tradex.Execution.EventStore

open List

/-- The operator `LIKE`, which ignores the case of ASCII letters. -/
def like : List Char → List Char → Bool
  | [], text => text.isEmpty
  | symbol :: pattern, text =>
    if symbol = '%' then text.tails.any (like pattern)
    else
      match text with
      | [] => false
      | first :: rest => (symbol = '_' || symbol.toLower = first.toLower) && like pattern rest

variable (rows : List EventRow) (stream : String)

def storedBare : Bool := rows.any fun row ↦ row.streamId = stream

def selects (row : EventRow) : Bool :=
  if stream = "" ∨ stream = "*" then true
  else if storedBare rows stream then row.streamId = stream
  else if ':' ∈ stream.toList then false
  else like ('%' :: ':' :: stream.toList) row.streamId.toList

def count : ℕ := (rows.filter (selects rows stream)).length

def lastSequence : ℕ := (((rows.filter (selects rows stream)).map EventRow.sequence).max?).getD 0

def Unmixed : Prop :=
  if storedBare rows stream then
    ∀ row ∈ rows, streamSuffix row.streamId = stream → row.streamId = stream
  else
    ∀ row ∈ rows, like ('%' :: ':' :: stream.toList) row.streamId.toList →
      streamSuffix row.streamId = stream

variable {rows stream} {stored : String}

theorem like_self {text : List Char} : like text text := by
  induction text with
  | nil => rfl
  | cons symbol rest ih =>
    unfold like
    split_ifs
    · exact any_eq_true.mpr ⟨rest, by simp, ih⟩
    · simp [ih]

theorem streamSuffix_bare (hbare : ':' ∉ stream.toList) : streamSuffix stream = stream := by
  unfold streamSuffix
  rw [takeWhile_eq_self_iff.mpr, reverse_reverse, String.ofList_toList]
  intro symbol hsym
  exact decide_eq_true fun heq ↦ hbare (heq ▸ mem_reverse.mp hsym)

theorem like_of_stored (hstore : ¬storedBare rows stream) {row : EventRow} (hrow : row ∈ rows)
    (hsfx : streamSuffix row.streamId = stream) :
    like ('%' :: ':' :: stream.toList) row.streamId.toList := by
  have hsplit := takeWhile_append_dropWhile (p := (· ≠ ':')) (l := row.streamId.toList.reverse)
  cases hdrop : row.streamId.toList.reverse.dropWhile (· ≠ ':') with
  | nil =>
    rw [hdrop, append_nil] at hsplit
    rw [streamSuffix, hsplit, reverse_reverse, String.ofList_toList] at hsfx
    exact absurd (any_eq_true.mpr ⟨row, hrow, decide_eq_true hsfx⟩) hstore
  | cons symbol front =>
    have hcolon := head?_dropWhile_not (· ≠ ':') row.streamId.toList.reverse
    rw [hdrop] at hcolon
    obtain rfl : symbol = ':' := by simpa using hcolon
    have hstore : front.reverse ++ ':' :: stream.toList = row.streamId.toList := by
      rw [← reverse_reverse row.streamId.toList, ← hsplit, hdrop, ← hsfx, streamSuffix]
      simp
    exact any_eq_true.mpr ⟨_, (mem_tails _ _).mpr ⟨_, hstore⟩, like_self⟩

theorem matchesStream_bare (hall : ¬(stream = "" ∨ stream = "*")) (hbare : ':' ∉ stream.toList) :
    matchesStream stored stream = decide (streamSuffix stored = stream) := by
  unfold matchesStream
  split_ifs with heq
  · rw [heq, streamSuffix_bare hbare, decide_eq_true rfl]
  · rfl

theorem length_filter_eq_iff {Item : Type} {items : List Item} {first second : Item → Bool}
    (hincluded : ∀ item ∈ items, first item → second item) :
    (items.filter first).length = (items.filter second).length ↔
      ∀ item ∈ items, first item = second item := by
  have hboth : items.filter first = (items.filter second).filter first := by
    rw [filter_filter]
    exact filter_congr fun item hitem ↦ (Bool.and_eq_left_iff_imp.mpr (hincluded item hitem)).symm
  rw [hboth, length_filter_eq_length_iff]
  simp only [mem_filter, and_imp]
  refine forall₂_congr fun item hitem ↦ ⟨fun hback ↦ ?_, fun heq hsnd ↦ heq ▸ hsnd⟩
  exact Bool.eq_iff_iff.mpr ⟨hincluded item hitem, hback⟩

theorem selects_special (hspecial : stream = "" ∨ stream = "*" ∨ ':' ∈ stream.toList) :
    ∀ row ∈ rows, selects rows stream row = matchesStream row.streamId stream := by
  unfold selects matchesStream storedBare
  split_ifs <;> grind

theorem count_eq_iff :
    count rows stream = (rows.filter fun row ↦ matchesStream row.streamId stream).length ↔
      ∀ row ∈ rows, selects rows stream row = matchesStream row.streamId stream := by
  by_cases hspecial : stream = "" ∨ stream = "*" ∨ ':' ∈ stream.toList
  · exact length_filter_eq_iff fun row hrow hselects ↦ selects_special hspecial row hrow ▸ hselects
  · obtain ⟨hall, hbare⟩ : ¬(stream = "" ∨ stream = "*") ∧ ':' ∉ stream.toList := by tauto
    by_cases hstore : storedBare rows stream
    · refine length_filter_eq_iff fun row hrow hselects ↦ ?_
      rw [selects, if_neg hall, if_pos hstore, decide_eq_true_iff] at hselects
      rw [matchesStream_bare hall hbare, hselects, streamSuffix_bare hbare, decide_eq_true rfl]
    · rw [count, eq_comm, length_filter_eq_iff]
      · simp only [eq_comm]
      · intro row hrow hmatch
        rw [matchesStream_bare hall hbare, decide_eq_true_iff] at hmatch
        rw [selects, if_neg hall, if_neg hstore, if_neg hbare]
        exact like_of_stored hstore hrow hmatch

theorem selects_eq_iff :
    (∀ row ∈ rows, selects rows stream row = matchesStream row.streamId stream) ↔
      stream = "" ∨ stream = "*" ∨ ':' ∈ stream.toList ∨ Unmixed rows stream := by
  by_cases hspecial : stream = "" ∨ stream = "*" ∨ ':' ∈ stream.toList
  · exact iff_of_true (selects_special hspecial) (by tauto)
  · obtain ⟨hall, hbare⟩ : ¬(stream = "" ∨ stream = "*") ∧ ':' ∉ stream.toList := by tauto
    rw [← or_assoc, or_iff_right hall, or_iff_right hbare]
    simp only [selects, matchesStream_bare hall hbare]
    unfold Unmixed
    split_ifs with hstore
    · refine forall₂_congr fun row hrow ↦ ?_
      rw [decide_eq_decide]
      exact ⟨Iff.mpr, fun hback ↦ ⟨fun heq ↦ heq.symm ▸ streamSuffix_bare hbare, hback⟩⟩
    · refine forall₂_congr fun row hrow ↦ ?_
      rw [Bool.eq_iff_iff, decide_eq_true_iff]
      exact ⟨Iff.mp, fun hlike ↦ ⟨hlike, like_of_stored hstore hrow⟩⟩

theorem max?_sequence {rows : List EventRow}
    (hsorted : rows.Pairwise fun first second ↦ first.sequence < second.sequence) :
    (rows.map EventRow.sequence).max? = (rows.getLast?).map EventRow.sequence := by
  rcases eq_nil_or_concat' rows with rfl | ⟨front, last, rfl⟩
  · rfl
  · obtain ⟨-, -, hpre⟩ := pairwise_append.mp hsorted
    rw [getLast?_concat, Option.map_some, max?_eq_some_iff]
    simp only [map_append, mem_append, map_cons, map_nil, mem_singleton, mem_map]
    refine ⟨.inr trivial, ?_⟩
    rintro _ (⟨row, hrow, rfl⟩ | rfl)
    · exact (hpre row hrow last (mem_singleton_self last)).le
    · exact le_rfl

variable {Event : Type} {store : Store Event} {events : List Event}

/-- `count` and `last_sequence` agree with `replay` exactly when the stream's bare and qualified
rows are not mixed. -/
theorem counts_agree_iff
    (hsorted : rows.Pairwise fun first second ↦ first.sequence < second.sequence)
    (hrep : replay store rows stream none = .ok events) :
    (count rows stream = events.length ∧
        lastSequence rows stream =
          (((rows.filter (wanted stream none)).getLast?).map EventRow.sequence).getD 0) ↔
      stream = "" ∨ stream = "*" ∨ ':' ∈ stream.toList ∨ Unmixed rows stream := by
  have hwanted : wanted stream none = fun row ↦ matchesStream row.streamId stream := by
    funext row
    exact Bool.and_true _
  have hlength := congrArg length (replayFrom_eq_ok.mp hrep).2.2.2
  rw [length_map, length_map, hwanted] at hlength
  rw [← hlength, count_eq_iff, selects_eq_iff, hwanted, and_iff_left_iff_imp]
  intro hagr
  rw [lastSequence, filter_congr (selects_eq_iff.mpr hagr), max?_sequence (hsorted.filter _)]

def unscopedStore : Store Bool := ⟨escapingSha, flagFormat, "*", "*"⟩

def mixedRows : List EventRow :=
  append flagStore (append unscopedStore [] (appended true)) (appended false)

theorem scoped_row_uncounted :
    replay flagStore mixedRows "orders" none = .ok [true, false] ∧
      count mixedRows "orders" = 1 ∧ lastSequence mixedRows "orders" = 1 := by
  refine ⟨replayFrom_eq_ok.mpr ⟨?_, isChain_pair.mpr rfl, nofun, by decide +kernel⟩,
    by decide +kernel⟩
  exact forall_mem_cons.mpr ⟨⟨_, _, rfl, rfl, fun _ ↦ rfl⟩,
    forall_mem_singleton.mpr ⟨_, _, rfl, rfl, fun _ ↦ rfl⟩⟩

theorem scoped_rows_counted :
    let rows := log flagStore [appended true, appended false]
    count rows "orders" = 2 ∧ lastSequence rows "orders" = 2 := by
  intro rows
  have hrep : replay flagStore rows "orders" none = .ok [true, false] :=
    replay_log_eq_ok (by decide +kernel)
  refine (counts_agree_iff (by decide +kernel) hrep).mpr (.inr (.inr (.inr ?_)))
  unfold Unmixed
  decide +kernel

end Tradex.Execution.EventStore
