import Tradex.Foundation.Dict

/-!
# Bounded tables in the order of their last writes

A write moves its key behind all others, and a table beyond its size gives up its
oldest entries. So a key stays for as long as fewer other keys than the table holds
have been written after it.
-/

namespace Tradex.Dict

open List

variable {Key Value : Type} [DecidableEq Key] {dict : Dict Key Value} {key : Key}
  {since : Finset Key} {val : Value}

theorem get_eq_some_iff : dict.get key = some val ↔ (key, val) ∈ dict.entries :=
  ⟨mem_of_lookupEntries, lookupEntries_of_mem dict.nodupKeys⟩

theorem nodup_setLast :
    (((dict.erase key).entries ++ [(key, val)]).map Prod.fst).Nodup := by
  rw [map_append, map_singleton, ← concat_eq_append]
  exact (dict.erase key).nodupKeys.concat (lookupEntries_eq_none_iff.1 get_erase_self)

def setLast (dict : Dict Key Value) (key : Key) (val : Value) : Dict Key Value :=
  ⟨(dict.erase key).entries ++ [(key, val)], nodup_setLast⟩

def trim (dict : Dict Key Value) (size : ℕ) : Dict Key Value :=
  ⟨dict.entries.drop (dict.entries.length - size),
    dict.nodupKeys.sublist ((List.drop_sublist _ _).map Prod.fst)⟩

def retain (dict : Dict Key Value) (keep : Value → Bool) : Dict Key Value :=
  ⟨dict.entries.filter (fun entry ↦ keep entry.2),
    dict.nodupKeys.sublist (List.filter_sublist.map Prod.fst)⟩

theorem get_setLast {key other : Key} :
    (dict.setLast key val).get other = if key = other then some val else dict.get other := by
  by_cases hkey : key = other
  · subst hkey
    rw [if_pos rfl, get_eq_some_iff]
    exact mem_append_right _ (mem_singleton.2 rfl)
  · rw [if_neg hkey]
    ext found
    rw [get_eq_some_iff, get_eq_some_iff]
    have hlast : (other, found) ≠ (key, val) := by
      intro heq
      exact hkey (congrArg Prod.fst heq).symm
    simp only [setLast, erase, mem_append, mem_filter, mem_singleton, hlast,
      or_false, decide_eq_true_eq, and_iff_left_iff_imp]
    intro _ heq
    exact hkey heq.symm

theorem get_of_get_trim {size : ℕ}
    (hget : (dict.trim size).get key = some val) : dict.get key = some val := by
  rw [get_eq_some_iff] at hget ⊢
  exact mem_of_mem_drop hget

def WrittenBefore (dict : Dict Key Value) (key : Key) (since : Finset Key) : Prop :=
  ∃ older val newer, dict.entries = older ++ (key, val) :: newer ∧
    ∀ entry ∈ newer, entry.1 ∈ since

theorem WrittenBefore.get_isSome (hpre : dict.WrittenBefore key since) : (dict.get key).isSome := by
  obtain ⟨older, val, newer, hrows, -⟩ := hpre
  have hget : dict.get key = some val := by
    rw [get_eq_some_iff, hrows]
    simp
  rw [hget]
  rfl

theorem writtenBefore_setLast_self {key : Key}
    {since : Finset Key} : (dict.setLast key val).WrittenBefore key since :=
  ⟨(dict.erase key).entries, val, [], rfl, by simp⟩

theorem WrittenBefore.setLast {key other : Key} (hpre : dict.WrittenBefore key since)
    (val : Value) : (dict.setLast other val).WrittenBefore key (insert other since) := by
  by_cases hkey : other = key
  · subst hkey
    exact writtenBefore_setLast_self
  obtain ⟨older, kept, newer, hrows, hnewer⟩ := hpre
  refine ⟨older.filter (fun entry ↦ entry.1 ≠ other), kept,
    newer.filter (fun entry ↦ entry.1 ≠ other) ++ [(other, val)], ?_, ?_⟩
  · have hkept : ¬ key = other := fun heq ↦ hkey heq.symm
    simp [Dict.setLast, erase, hrows, hkept]
  · intro entry hent
    rcases mem_append.1 hent with hent | hent
    · exact Finset.mem_insert_of_mem (hnewer entry (mem_filter.1 hent).1)
    · rw [mem_singleton.1 hent]
      exact Finset.mem_insert_self other since

theorem WrittenBefore.trim {size : ℕ} (hpre : dict.WrittenBefore key since)
    (hfew : since.card < size) : (dict.trim size).WrittenBefore key since := by
  obtain ⟨older, val, newer, hrows, hnewer⟩ := hpre
  have hnd : (newer.map Prod.fst).Nodup := by
    have hall := dict.nodupKeys
    rw [hrows, map_append] at hall
    exact (nodup_cons.1 (nodup_append.1 hall).2.1).2
  have hlen : newer.length ≤ since.card := by
    rw [← length_map Prod.fst, ← toFinset_card_of_nodup hnd]
    apply Finset.card_le_card
    intro other hother
    obtain ⟨entry, hent, rfl⟩ := mem_map.1 (mem_toFinset.1 hother)
    exact hnewer entry hent
  -- The entries given up are among those in front of the key.
  have hsave : dict.entries.length - size ≤ older.length := by
    rw [hrows, length_append, length_cons]
    omega
  refine ⟨older.drop (dict.entries.length - size), val, newer, ?_, hnewer⟩
  calc
    (dict.trim size).entries
        = (older ++ (key, val) :: newer).drop (dict.entries.length - size) := by
      rw [← hrows]
      rfl
    _ = older.drop (dict.entries.length - size) ++ (key, val) :: newer :=
      drop_append_of_le_length hsave

end Tradex.Dict
