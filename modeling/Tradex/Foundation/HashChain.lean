import Mathlib.Data.List.Chain

/-!
# Chains of digests

Records that carry a digest of their own and the digest of the record before them. Of
two chains that end in the same digest the shorter one is a suffix of the longer one.
-/

namespace Tradex.HashChain

open List

variable {Record Content Digest : Type} {own prev : Record → Digest}
  {content : Record → Content} {first second : List Record}

def Linked (own prev : Record → Digest) (records : List Record) : Prop :=
  records.IsChain fun prior later ↦ prev later = own prior

theorem linked_snoc {records : List Record} {last : Record} (hlink : Linked own prev records)
    (hlast : ∀ prior ∈ records.getLast?, prev last = own prior) :
    Linked own prev (records ++ [last]) := by
  refine isChain_append.mpr ⟨hlink, isChain_singleton _, ?_⟩
  intro prior hprior later hlate
  obtain rfl : last = later := Option.some.inj hlate
  exact hlast prior hprior

variable (hdet : ∀ record ∈ first, ∀ other ∈ second, own record = own other → content record
    = content other ∧ prev record = prev other)

include hdet in
theorem map_prefix_of_linked (hfst : first.IsChain fun later prior ↦ prev later = own prior)
    (hsnd : second.IsChain fun later prior ↦ prev later = own prior)
    (hheads : ∀ record ∈ first.head?, ∀ other ∈ second.head?, own record = own other)
    (hlen : first.length ≤ second.length) : first.map content <+: second.map content := by
  induction first generalizing second with
  | nil => exact nil_prefix
  | cons record rest ih =>
    cases second with
    | nil => simp at hlen
    | cons other others =>
      obtain ⟨hcont, hprev⟩ := hdet record mem_cons_self other
        mem_cons_self (hheads record rfl other rfl)
      rw [map_cons, map_cons, hcont, cons_prefix_cons]
      refine ⟨rfl, ih ?_ hfst.tail hsnd.tail ?_ (Nat.le_of_succ_le_succ hlen)⟩
      · intro record' hrec' other' hother'
        exact hdet record' (mem_cons_of_mem _ hrec') other' (mem_cons_of_mem _ hother')
      · intro record' hrec' other' hother'
        calc
          own record' = prev record := (isChain_cons.mp hfst |>.1 record' hrec').symm
          _ = prev other := hprev
          _ = own other' := isChain_cons.mp hsnd |>.1 other' hother'

include hdet in
theorem map_suffix_of_linked (hfst : Linked own prev first) (hsnd : Linked own prev second)
    (hlasts : ∀ record ∈ first.getLast?, ∀ other ∈ second.getLast?, own record = own other)
    (hlen : first.length ≤ second.length) : first.map content <:+ second.map content := by
  rw [← reverse_prefix, ← map_reverse, ← map_reverse]
  apply map_prefix_of_linked
  · intro record hrec other hother
    exact hdet record (mem_reverse.mp hrec) other (mem_reverse.mp hother)
  · exact isChain_reverse.mpr hfst
  · exact isChain_reverse.mpr hsnd
  · rw [head?_reverse, head?_reverse]
    exact hlasts
  · rw [length_reverse, length_reverse]
    exact hlen

end Tradex.HashChain
