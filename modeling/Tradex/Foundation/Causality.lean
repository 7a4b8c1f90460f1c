import Tradex.Foundation.Outcome
import Mathlib.Order.Lattice

/-!
# Causal runs

A run folds a step over events that are ordered by time, and may read a table built from the whole
list.
-/

namespace Tradex

open List

variable {Event Time State View Err : Type} [LinearOrder Time] {time : Event → Time}

def OrderedBy (time : Event → Time) (events : List Event) : Prop :=
  events.Pairwise fun prior later ↦ time prior ≤ time later

instance decidableOrderedBy (time : Event → Time) (events : List Event) :
    Decidable (OrderedBy time events) :=
  inferInstanceAs (Decidable (events.Pairwise _))

def upTo (time : Event → Time) (limit : Time) (events : List Event) : List Event :=
  events.filter fun ev ↦ time ev ≤ limit

variable {first second : List Event}

theorem upTo_eq_of_le {limit prior : Time}
    (hagree : upTo time limit first = upTo time limit second) (hle : prior ≤ limit) :
    upTo time prior first = upTo time prior second := by
  have hrefine : ∀ events, upTo time prior (upTo time limit events) =
      upTo time prior events := by
    intro events
    rw [upTo, upTo, filter_filter]
    refine filter_congr fun ev _ ↦ ?_
    rw [← Bool.decide_and]
    exact decide_eq_decide.mpr (and_iff_left_of_imp fun hev ↦ hev.trans hle)
  rw [← hrefine first, ← hrefine second, hagree]

variable {events : List Event} {limit : Time}

theorem upTo_append_after (hordered : OrderedBy time events) :
    upTo time limit events ++ events.filter (fun ev ↦ limit < time ev) = events := by
  induction events with
  | nil => rfl
  | cons ev rest ih =>
    obtain ⟨hfst, hrest⟩ := pairwise_cons.mp hordered
    by_cases hev : time ev ≤ limit
    · rw [upTo, filter_cons_of_pos (by simpa using hev), filter_cons_of_neg (by simpa using hev)]
      exact congrArg (ev :: ·) (ih hrest)
    · have hafter : ∀ other ∈ ev :: rest, limit < time other := by
        rintro other (_ | ⟨_, hother⟩)
        · exact not_le.mp hev
        · exact (not_le.mp hev).trans_le (hfst other hother)
      rw [upTo, filter_eq_nil_iff.mpr fun other hother ↦ by simpa using hafter other hother,
        filter_eq_self.mpr fun other hother ↦ by simpa using hafter other hother,
        nil_append]

def Causal (time : Event → Time) (table : List Event → Time → View) : Prop :=
  ∀ first second limit, upTo time limit first = upTo time limit second →
    table first limit = table second limit

theorem Causal.foldlM_upTo_eq {table : List Event → Time → View} (hcausal : Causal time table)
    (hagree : upTo time limit first = upTo time limit second)
    (step : View → State → Event → Except Err State) (start : State) :
    (upTo time limit first).foldlM (fun st ev ↦ step (table first (time ev)) st ev)
        start =
      (upTo time limit second).foldlM (fun st ev ↦ step (table second (time ev)) st ev) start := by
  rw [← hagree]
  refine foldlM_congr (fun ev hev st ↦ ?_) start
  have hle : time ev ≤ limit := of_decide_eq_true (mem_filter.mp hev).2
  rw [hcausal first second (time ev) (upTo_eq_of_le hagree hle)]

end Tradex
