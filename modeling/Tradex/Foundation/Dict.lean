import Mathlib.Algebra.BigOperators.Group.Finset.Basic
import Mathlib.Tactic.Abel

/-!
# Insertion-ordered dictionaries

A list of entries with pairwise distinct keys.
-/

namespace Tradex

open List

structure Dict (Key Value : Type) where
  entries : List (Key × Value)
  nodupKeys : (entries.map Prod.fst).Nodup
deriving DecidableEq

namespace Dict

variable {Key Value : Type} [DecidableEq Key]

def upsertEntries (key : Key) (val : Value) : List (Key × Value) → List (Key × Value)
  | [] => [(key, val)]
  | entry :: rest =>
    if entry.1 = key then (key, val) :: rest else entry :: upsertEntries key val rest

def lookupEntries (key : Key) : List (Key × Value) → Option Value
  | [] => none
  | entry :: rest => if entry.1 = key then some entry.2 else lookupEntries key rest

variable {key : Key} {rows : List (Key × Value)} {val : Value}

theorem map_fst_upsertEntries :
    (upsertEntries key val rows).map Prod.fst =
      if key ∈ rows.map Prod.fst then rows.map Prod.fst
      else rows.map Prod.fst ++ [key] := by
  induction rows with
  | nil => simp [upsertEntries]
  | cons entry rest ih =>
    by_cases hkey : entry.1 = key
    · simp [upsertEntries, hkey]
    · have hkey' : key ≠ entry.1 := fun heq ↦ hkey heq.symm
      simp only [upsertEntries, if_neg hkey, map_cons, ih, mem_cons, hkey', false_or]
      split <;> simp

variable {rows : List (Key × Value)} {key : Key} {val : Value} {dict : Dict Key Value}

theorem nodup_upsertEntries (hnd : (rows.map Prod.fst).Nodup) :
    ((upsertEntries key val rows).map Prod.fst).Nodup := by
  rw [map_fst_upsertEntries]
  split
  · exact hnd
  · rename_i hgone
    exact nodup_append.2 ⟨hnd, nodup_singleton key, by
      intro left hleft right hright heq
      rw [mem_singleton.1 hright] at heq
      exact hgone (heq ▸ hleft)⟩

def empty : Dict Key Value := ⟨[], List.nodup_nil⟩

def get (dict : Dict Key Value) (key : Key) : Option Value := lookupEntries key dict.entries

def set (dict : Dict Key Value) (key : Key) (val : Value) : Dict Key Value :=
  ⟨upsertEntries key val dict.entries, nodup_upsertEntries dict.nodupKeys⟩

def erase (dict : Dict Key Value) (key : Key) : Dict Key Value :=
  ⟨dict.entries.filter (fun entry ↦ entry.1 ≠ key),
    dict.nodupKeys.sublist (List.filter_sublist.map Prod.fst)⟩

def values (dict : Dict Key Value) : List Value := dict.entries.map Prod.snd

def single (key : Key) (val : Value) : Dict Key Value := empty.set key val

@[simp] theorem get_empty : (empty : Dict Key Value).get key = none := rfl

variable {other : Key}

theorem lookupEntries_upsertEntries :
    lookupEntries other (upsertEntries key val rows) =
      if key = other then some val else lookupEntries other rows := by
  induction rows with
  | nil => simp [upsertEntries, lookupEntries]
  | cons entry rest ih =>
    by_cases hkey : entry.1 = key
    · subst hkey
      simp only [upsertEntries, if_true, lookupEntries]
      split <;> rfl
    · simp only [upsertEntries, if_neg hkey, lookupEntries, ih]
      by_cases hother : entry.1 = other
      · have hne : key ≠ other := fun heq ↦ hkey (hother.trans heq.symm)
        simp [hne]
      · simp [hother]

theorem get_set (dict : Dict Key Value) (key other : Key) (val : Value) :
    (dict.set key val).get other = if key = other then some val else dict.get other :=
  lookupEntries_upsertEntries

variable {dict : Dict Key Value}

@[simp] theorem get_set_self : (dict.set key val).get key = some val := by
  simp [get_set]

theorem get_set_of_ne (hne : key ≠ other) : (dict.set key val).get other = dict.get other := by
  simp [get_set, hne]

theorem upsertEntries_of_lookup (hlook : lookupEntries key rows = some val) :
    upsertEntries key val rows = rows := by
  induction rows with
  | nil => simp [lookupEntries] at hlook
  | cons entry rest ih =>
    by_cases hkey : entry.1 = key
    · simp only [lookupEntries, if_pos hkey, Option.some.injEq] at hlook
      simp [upsertEntries, ← hkey, ← hlook]
    · simp only [lookupEntries, if_neg hkey] at hlook
      simp [upsertEntries, if_neg hkey, ih hlook]

theorem set_of_get (hget : dict.get key = some val) : dict.set key val = dict := by
  cases dict
  simp only [set, mk.injEq]
  exact upsertEntries_of_lookup hget

theorem lookupEntries_filter_ne :
    lookupEntries other (rows.filter (fun entry ↦ entry.1 ≠ key)) =
      if key = other then none else lookupEntries other rows := by
  induction rows with
  | nil => simp [lookupEntries]
  | cons entry rest ih =>
    by_cases hkey : entry.1 = key
    · simp only [filter_cons, hkey, ne_eq, not_true_eq_false, decide_false, Bool.false_eq_true,
        if_false, lookupEntries]
      rw [ih]
      split <;> rfl
    · simp only [filter_cons, ne_eq, hkey, not_false_eq_true, decide_true, if_true, lookupEntries]
      rw [ih]
      by_cases hother : entry.1 = other
      · have hne : key ≠ other := fun heq ↦ hkey (hother.trans heq.symm)
        simp [hne]
      · simp [hother]

theorem get_erase : (dict.erase key).get other = if key = other then none else dict.get other :=
  lookupEntries_filter_ne

@[simp] theorem get_erase_self : (dict.erase key).get key = none := by
  simp [get_erase]

theorem lookupEntries_eq_none_iff : lookupEntries key rows = none ↔ key ∉ rows.map Prod.fst := by
  induction rows with
  | nil => simp [lookupEntries]
  | cons entry rest ih =>
    by_cases hkey : entry.1 = key
    · simp [lookupEntries, hkey]
    · have hkey' : key ≠ entry.1 := fun heq ↦ hkey heq.symm
      simp [lookupEntries, if_neg hkey, ih, hkey']

theorem lookupEntries_of_mem (hnd : (rows.map Prod.fst).Nodup)
    (hmem : (key, val) ∈ rows) : lookupEntries key rows = some val := by
  induction rows with
  | nil => simp at hmem
  | cons entry rest ih =>
    rw [map_cons, nodup_cons] at hnd
    rcases mem_cons.1 hmem with rfl | hrest
    · simp [lookupEntries]
    · have hne : entry.1 ≠ key := by
        intro heq
        exact hnd.1 (heq ▸ mem_map_of_mem hrest)
      simp [lookupEntries, hne, ih hnd.2 hrest]

theorem exists_get_of_mem_values (hmem : val ∈ dict.values) : ∃ key, dict.get key = some val := by
  obtain ⟨entry, hent, rfl⟩ := mem_map.1 hmem
  exact ⟨entry.1, lookupEntries_of_mem dict.nodupKeys hent⟩

theorem mem_of_lookupEntries (hlook : lookupEntries key rows = some val) : (key, val) ∈ rows := by
  induction rows with
  | nil => cases hlook
  | cons entry rest ih =>
    rw [lookupEntries] at hlook
    split at hlook
    next hkey =>
      cases hlook
      exact hkey ▸ mem_cons_self
    · exact mem_cons_of_mem _ (ih hlook)

theorem mem_values_of_get (hget : dict.get key = some val) : val ∈ dict.values :=
  mem_map_of_mem (mem_of_lookupEntries hget)

def keys (dict : Dict Key Value) : Finset Key := (dict.entries.map Prod.fst).toFinset

theorem mem_keys : key ∈ dict.keys ↔ (dict.get key).isSome := by
  rw [keys, mem_toFinset, Option.isSome_iff_ne_none, ne_eq, get, lookupEntries_eq_none_iff, not_not]

variable {Total : Type} [AddCommGroup Total] {measure : Value → Total} {keys : Finset Key}

def sumBy (measure : Value → Total) (dict : Dict Key Value) : Total :=
  (dict.values.map measure).sum

theorem sum_upsertEntries (measure : Value → Total) (key : Key) (val : Value)
    (rows : List (Key × Value)) :
    ((upsertEntries key val rows).map (fun entry ↦ measure entry.2)).sum =
      (rows.map (fun entry ↦ measure entry.2)).sum -
        ((lookupEntries key rows).elim 0 measure) + measure val := by
  induction rows with
  | nil => simp [upsertEntries, lookupEntries]
  | cons entry rest ih =>
    by_cases hkey : entry.1 = key
    · simp only [upsertEntries, lookupEntries, if_pos hkey, map_cons, sum_cons, Option.elim_some]
      abel
    · simp only [upsertEntries, lookupEntries, if_neg hkey, map_cons, sum_cons, ih]
      abel

theorem sumBy_set :
    sumBy measure (dict.set key val) =
      sumBy measure dict - (dict.get key).elim 0 measure + measure val := by
  have hmain := sum_upsertEntries measure key val dict.entries
  simpa only [sumBy, values, set, get, map_map, Function.comp_def] using hmain

theorem sum_entries_eq_sum_get {measure : Key → Value → Total}
    (hkeys : ∀ key, (dict.get key).isSome → key ∈ keys) :
    (dict.entries.map fun entry ↦ measure entry.1 entry.2).sum =
      ∑ key ∈ keys, (dict.get key).elim 0 (measure key) := by
  have hrows : dict.entries.map (fun entry ↦ measure entry.1 entry.2) =
      (dict.entries.map Prod.fst).map fun key ↦ (dict.get key).elim 0 (measure key) := by
    rw [map_map]
    refine map_congr_left fun entry hent ↦ ?_
    have hget : dict.get entry.1 = some entry.2 := lookupEntries_of_mem dict.nodupKeys hent
    rw [Function.comp_apply, hget, Option.elim_some]
  rw [hrows, ← sum_toFinset _ dict.nodupKeys]
  refine Finset.sum_subset (fun key hkey ↦ hkeys key (mem_keys.1 hkey)) fun key _ hgone ↦ ?_
  have hnone : dict.get key = none := Option.not_isSome_iff_eq_none.1 (mem_keys.not.1 hgone)
  rw [hnone, Option.elim_none]

theorem sumBy_eq_sum_get (hkeys : ∀ key, (dict.get key).isSome → key ∈ keys) :
    sumBy measure dict = ∑ key ∈ keys, (dict.get key).elim 0 measure := by
  rw [← sum_entries_eq_sum_get hkeys, sumBy, values, map_map]
  rfl

end Dict

end Tradex
