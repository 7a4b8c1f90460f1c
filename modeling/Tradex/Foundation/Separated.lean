import Mathlib.Data.List.Induction

/-!
# Texts with separators

A text joined from fields determines the fields that do not contain the
separator, as far as they are counted from either end. At most one field, at a
known place, may contain it.
-/

namespace Tradex

open List

variable {Symbol : Type} {separator : Symbol}

theorem split_at_separator {first first' rest rest' : List Symbol} (hfst : separator ∉ first)
    (hfst' : separator ∉ first')
    (heq : first ++ separator :: rest = first' ++ separator :: rest') :
    first = first' ∧ rest = rest' := by
  induction first generalizing first' with
  | nil =>
    cases first' with
    | nil => exact ⟨rfl, tail_eq_of_cons_eq heq⟩
    | cons head tail =>
      have hhead : separator = head := head_eq_of_cons_eq heq
      exact absurd (hhead ▸ mem_cons_self) hfst'
  | cons head tail ih =>
    cases first' with
    | nil =>
      have hhead : head = separator := head_eq_of_cons_eq heq
      exact absurd (hhead ▸ mem_cons_self) hfst
    | cons head' tail' =>
      have hhead : head = head' := head_eq_of_cons_eq heq
      have htail := ih (fun hmem ↦ hfst (mem_cons_of_mem _ hmem))
        (fun hmem ↦ hfst' (mem_cons_of_mem _ hmem)) (tail_eq_of_cons_eq heq)
      exact ⟨by rw [hhead, htail.1], htail.2⟩

theorem split_at_last_separator {rest rest' last last' : List Symbol} (hlast : separator ∉ last)
    (hlast' : separator ∉ last') (heq : rest ++ separator :: last = rest' ++ separator :: last') :
    rest = rest' ∧ last = last' := by
  have hreversed := congrArg reverse heq
  simp only [reverse_append, reverse_cons, append_assoc] at hreversed
  obtain ⟨hlasts, hrests⟩ := split_at_separator (by rwa [mem_reverse])
    (by rwa [mem_reverse]) hreversed
  exact ⟨reverse_inj.mp hrests, reverse_inj.mp hlasts⟩

variable {rest : List (List Symbol)} {back back' : List (List Symbol)}
  {middle middle' : List Symbol}

theorem intercalate_cons_of_ne_nil {field : List Symbol} (hrest : rest ≠ []) :
    intercalate [separator] (field :: rest) =
      field ++ separator :: intercalate [separator] rest := by
  cases rest with
  | nil => exact absurd rfl hrest
  | cons next rest => simp

theorem intercalate_snoc {field last : List Symbol} :
    intercalate [separator] (field :: (rest ++ [last])) =
      intercalate [separator] (field :: rest) ++ separator :: last := by
  induction rest generalizing field with
  | nil => simp
  | cons next rest ih =>
    rw [cons_append, intercalate_cons_of_ne_nil (cons_ne_nil _ _), ih]
    simp

theorem intercalate_front_inj {front front' rest rest' : List (List Symbol)}
    (hlen : front.length = front'.length) (hrest : rest ≠ []) (hrest' : rest' ≠ [])
    (hfront : ∀ field ∈ front, separator ∉ field) (hfront' : ∀ field ∈ front', separator ∉ field)
    (heq : intercalate [separator] (front ++ rest) =
      intercalate [separator] (front' ++ rest')) :
    front = front' ∧ intercalate [separator] rest = intercalate [separator] rest' := by
  induction front generalizing front' with
  | nil =>
    obtain rfl := length_eq_zero_iff.mp hlen.symm
    exact ⟨rfl, heq⟩
  | cons field front ih =>
    cases front' with
    | nil => cases hlen
    | cons field' front' =>
      rw [cons_append, cons_append, intercalate_cons_of_ne_nil (by simp [hrest]),
        intercalate_cons_of_ne_nil (by simp [hrest'])] at heq
      obtain ⟨rfl, hflds⟩ := split_at_separator (hfront field mem_cons_self)
        (hfront' field' mem_cons_self) heq
      obtain ⟨rfl, hrests⟩ := ih (Nat.succ.inj hlen)
        (fun other hother ↦ hfront other (mem_cons_of_mem _ hother))
        (fun other hother ↦ hfront' other (mem_cons_of_mem _ hother)) hflds
      exact ⟨rfl, hrests⟩

theorem intercalate_back_inj (hlen : back.length = back'.length)
    (hback : ∀ field ∈ back, separator ∉ field) (hback' : ∀ field ∈ back', separator ∉ field)
    (heq : intercalate [separator] (middle :: back) =
      intercalate [separator] (middle' :: back')) : middle = middle' ∧ back = back' := by
  induction back using reverseRecOn generalizing back' with
  | nil =>
    obtain rfl := length_eq_zero_iff.mp hlen.symm
    simpa  using heq
  | append_singleton back last ih =>
    induction back' using reverseRecOn with
    | nil => simp at hlen
    | append_singleton back' last' _ =>
      rw [intercalate_snoc, intercalate_snoc] at heq
      obtain ⟨hflds, rfl⟩ := split_at_last_separator (hback last (by simp))
        (hback' last' (by simp)) heq
      obtain ⟨rfl, rfl⟩ := ih (by simpa using hlen)
        (fun field hfield ↦ hback field (mem_append_left _ hfield))
        (fun field hfield ↦ hback' field (mem_append_left _ hfield)) hflds
      exact ⟨rfl, rfl⟩

theorem intercalate_middle_inj {front front' : List (List Symbol)}
    (hfronts : front.length = front'.length) (hbacks : back.length = back'.length)
    (hplain : ∀ field ∈ front ++ back, separator ∉ field)
    (hplain' : ∀ field ∈ front' ++ back', separator ∉ field)
    (heq : intercalate [separator] (front ++ middle :: back) =
      intercalate [separator] (front' ++ middle' :: back')) :
    front = front' ∧ middle = middle' ∧ back = back' := by
  obtain ⟨hfront, hrest⟩ := intercalate_front_inj hfronts (cons_ne_nil _ _)
    (cons_ne_nil _ _) (fun field hfield ↦ hplain field (mem_append_left _ hfield))
    (fun field hfield ↦ hplain' field (mem_append_left _ hfield)) heq
  exact ⟨hfront, intercalate_back_inj hbacks
    (fun field hfield ↦ hplain field (mem_append_right _ hfield))
    (fun field hfield ↦ hplain' field (mem_append_right _ hfield)) hrest⟩

end Tradex
