import Mathlib.Data.List.Sort

/-!
# Filters and stable sorting

A filter commutes with a stable sort.
-/

namespace Tradex

open List

variable {Item : Type} {le : Item → Item → Prop} [DecidableRel le] [IsTrans Item le]
  {kept : Item → Bool}

theorem filter_orderedInsert {item : Item} {items : List Item} (hitems : items.Pairwise le) :
    (items.orderedInsert le item).filter kept =
      if kept item then (items.filter kept).orderedInsert le item else items.filter kept := by
  induction items with
  | nil => simp [filter_cons]
  | cons first rest ih =>
    obtain ⟨hfst, hrest⟩ := pairwise_cons.mp hitems
    by_cases hle : le item first
    · have hfront : ∀ other ∈ (first :: rest).filter kept, le item other := by
        intro other hother
        rcases mem_cons.mp (mem_of_mem_filter hother) with rfl | hmem
        · exact hle
        · exact trans_of le hle (hfst other hmem)
      rw [orderedInsert_cons, if_pos hle, filter_cons]
      split_ifs
      · cases hkept : (first :: rest).filter kept with
        | nil => rfl
        | cons next more => rw [orderedInsert_cons, if_pos (hfront next (by simp [hkept]))]
      · rfl
    · rw [orderedInsert_cons, if_neg hle, filter_cons, ih hrest, filter_cons]
      split_ifs <;> simp [orderedInsert_cons, hle]

theorem filter_insertionSort [Std.Total le] {items : List Item} :
    (items.insertionSort le).filter kept = (items.filter kept).insertionSort le := by
  induction items with
  | nil => rfl
  | cons item rest ih =>
    rw [insertionSort_cons, filter_orderedInsert (pairwise_insertionSort le rest), ih, filter_cons]
    split <;> rfl

end Tradex
