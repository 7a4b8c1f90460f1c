import Mathlib.Data.List.Dedup
import Tradex.Domain.Types
import Tradex.Foundation.Outcome

/-!
# The wire set of a live feed

A feed keeps the instruments it wants; the stream backend keeps those on the wire, with reference
counts, and those known to the feed's subscription. Releasing an instrument prunes the wire and
leaves it known.
-/

namespace Tradex.Runtime

open Tradex.Domain List

structure LiveStreams where
  wanted : List Instrument
  quoteSub : Bool
  wire : List Instrument
  known : List Instrument
  refs : Instrument → ℕ

namespace LiveStreams

def idle : LiveStreams := ⟨[], false, [], [], fun _ ↦ 0⟩

variable (streams : LiveStreams)

def subscribeQuote (inst : Instrument) : LiveStreams :=
  if inst ∈ streams.known then streams
  else
    { streams with
      known := streams.known ++ [inst]
      refs := Function.update streams.refs inst (streams.refs inst + 1)
      wire := if inst ∈ streams.wire then streams.wire else streams.wire ++ [inst] }

def dropInstrument (inst : Instrument) : LiveStreams :=
  if streams.refs inst ≤ 1 then
    { streams with
      refs := Function.update streams.refs inst 0
      wire := streams.wire.filter (· ≠ inst) }
  else { streams with refs := Function.update streams.refs inst (streams.refs inst - 1) }

def unsubscribeQuotes : LiveStreams :=
  { streams.known.foldl dropInstrument streams with known := [] }

inductive Call where
  | subscribe (instruments : List Instrument)
  | unsubscribe (instruments : List Instrument)
  | stop

def stop : LiveStreams :=
  { (if streams.quoteSub then streams.unsubscribeQuotes else streams) with
    quoteSub := false
    wanted := [] }

variable (instrs : List Instrument)

def subscribe : LiveStreams :=
  let added := instrs.filter (· ∉ streams.wanted)
  if added = [] then streams
  else
    { added.foldl subscribeQuote streams with
      wanted := streams.wanted ∪ added
      quoteSub := true }

def unsubscribe : LiveStreams :=
  let removed := instrs.dedup.filter (· ∈ streams.wanted)
  let released : LiveStreams :=
    { removed.foldl dropInstrument streams with wanted := streams.wanted.filter (· ∉ removed) }
  if removed ≠ [] ∧ released.wanted = [] then released.stop else released

def apply : Call → LiveStreams
  | .subscribe instrs => streams.subscribe instrs
  | .unsubscribe instrs => streams.unsubscribe instrs
  | .stop => streams.stop

def Carried : Prop := ∀ inst, inst ∈ streams.wire ↔ inst ∈ streams.wanted

/-- The bookkeeping of a feed whose wire carries what it wants: every instrument
on the wire is held once and known to the subscription. -/
structure Exact (streams : LiveStreams) : Prop where
  carried : streams.Carried
  known : ∀ inst ∈ streams.wanted, inst ∈ streams.known
  refs : ∀ inst, streams.refs inst = if inst ∈ streams.wanted then 1 else 0
  idle : streams.quoteSub = false → streams.wanted = [] ∧ streams.known = []

theorem exact_idle : idle.Exact := ⟨fun _ ↦ Iff.rfl, fun _ h ↦ h, fun _ ↦ rfl, fun _ ↦ ⟨rfl, rfl⟩⟩

/-- Subscribing a list puts on the wire what was not yet known. -/
theorem foldl_subscribeQuote (streams : LiveStreams) (inst : Instrument) :
    (inst ∈ (instrs.foldl subscribeQuote streams).wire ↔
        inst ∈ streams.wire ∨ inst ∈ instrs ∧ inst ∉ streams.known) ∧
      (inst ∈ (instrs.foldl subscribeQuote streams).known ↔
        inst ∈ streams.known ∨ inst ∈ instrs) ∧
      (instrs.foldl subscribeQuote streams).refs inst = streams.refs inst +
        if inst ∈ instrs ∧ inst ∉ streams.known then 1 else 0 := by
  induction instrs generalizing streams with
  | nil => simp
  | cons head rest ih =>
    obtain ⟨hwire, hknown, hrefs⟩ := ih (streams.subscribeQuote head)
    rw [foldl_cons, hwire, hknown, hrefs, subscribeQuote]
    by_cases hhead : head ∈ streams.known
    · grind
    · simp only [if_neg hhead, Function.update_apply]
      grind

/-- Dropping a list of instruments held once takes them off the wire and leaves
them known. -/
theorem foldl_dropInstrument {streams : LiveStreams} (honce : ∀ inst, streams.refs inst ≤ 1) :
    (∀ inst, inst ∈ (instrs.foldl dropInstrument streams).wire ↔
        inst ∈ streams.wire ∧ inst ∉ instrs) ∧
      (∀ inst, (instrs.foldl dropInstrument streams).refs inst =
        if inst ∈ instrs then 0 else streams.refs inst) ∧
      (instrs.foldl dropInstrument streams).known = streams.known ∧
      (instrs.foldl dropInstrument streams).quoteSub = streams.quoteSub := by
  induction instrs generalizing streams with
  | nil => simp
  | cons head rest ih =>
    have hdrop : streams.dropInstrument head =
        { streams with
          refs := Function.update streams.refs head 0
          wire := streams.wire.filter (· ≠ head) } := if_pos (honce head)
    have hkept : ∀ inst, (streams.dropInstrument head).refs inst ≤ 1 := by
      intro inst
      simp only [hdrop, Function.update_apply]
      split <;> simp [honce]
    obtain ⟨hwire, hrefs, hknown, hsub⟩ := ih hkept
    rw [foldl_cons, hknown, hsub]
    refine ⟨fun inst ↦ ?_, fun inst ↦ ?_, by rw [hdrop], by rw [hdrop]⟩
    · rw [hwire, hdrop]
      simp only [mem_filter, mem_cons, decide_eq_true_eq]
      tauto
    · rw [hrefs, hdrop]
      rcases eq_or_ne inst head with rfl | hne
      · simp
      · simp [hne]

variable {streams : LiveStreams}

section

variable (hexact : streams.Exact)

include hexact

theorem Exact.refs_le (inst : Instrument) : streams.refs inst ≤ 1 := by
  rw [hexact.refs]
  split <;> omega

theorem Exact.stop : streams.stop.Exact := by
  obtain ⟨hwire, hrefs, -, -⟩ := foldl_dropInstrument streams.known hexact.refs_le
  rw [LiveStreams.stop]
  cases hsub : streams.quoteSub with
  | false =>
    obtain ⟨hwant, hknown⟩ := hexact.idle hsub
    have hsame : { streams with quoteSub := false, wanted := [] } = streams := by
      cases streams
      simp_all
    simpa only [Bool.false_eq_true, if_false, hsame] using hexact
  | true =>
    refine ⟨fun inst ↦ ?_, fun _ h ↦ absurd h not_mem_nil, fun inst ↦ ?_, fun _ ↦ ⟨rfl, rfl⟩⟩
    · refine iff_of_false (fun hmem ↦ ?_) not_mem_nil
      obtain ⟨hon, hunk⟩ := (hwire inst).1 hmem
      exact hunk (hexact.known inst ((hexact.carried inst).1 hon))
    · change (streams.known.foldl dropInstrument streams).refs inst = 0
      rw [hrefs, hexact.refs]
      split
      · rfl
      next hunk => exact if_neg fun hwant ↦ hunk (hexact.known inst hwant)

theorem Exact.unsubscribe (instrs : List Instrument) : (streams.unsubscribe instrs).Exact := by
  obtain ⟨hwire, hrefs, hknown, hsub⟩ :=
    foldl_dropInstrument (instrs.dedup.filter (· ∈ streams.wanted)) hexact.refs_le
  have hrel : Exact
      { (instrs.dedup.filter (· ∈ streams.wanted)).foldl dropInstrument streams with
        wanted := streams.wanted.filter (· ∉ instrs.dedup.filter (· ∈ streams.wanted)) } := by
    refine ⟨fun inst ↦ ?_, fun inst hinst ↦ ?_, fun inst ↦ ?_, fun hidle ↦ ?_⟩
    · refine (hwire inst).trans ?_
      simp only [hexact.carried inst, mem_filter, decide_eq_true_eq]
    · exact hknown ▸ hexact.known inst (mem_of_mem_filter hinst)
    · rw [hrefs, hexact.refs]
      grind
    · obtain ⟨hwant, hnil⟩ := hexact.idle (hsub ▸ hidle)
      exact ⟨by simp [hwant], hknown.trans hnil⟩
  rw [LiveStreams.unsubscribe]
  split
  · exact hrel.stop
  · exact hrel

/-- A request adds only instruments that the subscription does not know. -/
def Fresh (streams : LiveStreams) : Call → Prop
  | .subscribe instrs => ∀ inst ∈ instrs, inst ∉ streams.wanted → inst ∉ streams.known
  | _ => True

variable {instrs : List Instrument}

theorem carried_subscribe_iff :
    (streams.subscribe instrs).Carried ↔ streams.Fresh (.subscribe instrs) := by
  rw [LiveStreams.subscribe, Fresh]
  split
  next hnone =>
    have hall : ∀ inst ∈ instrs, inst ∈ streams.wanted := by simpa using hnone
    exact iff_of_true hexact.carried fun inst hinst hgone ↦ absurd (hall inst hinst) hgone
  · simp only [Carried, (foldl_subscribeQuote _ _ _).1, hexact.carried _]
    exact ⟨fun hwire inst hinst hgone ↦ by grind, fun hnew inst ↦ by grind⟩

theorem Exact.subscribe
    (hfresh : streams.Fresh (.subscribe instrs)) : (streams.subscribe instrs).Exact := by
  refine ⟨(carried_subscribe_iff hexact).2 hfresh, ?_, ?_, ?_⟩ <;>
    rw [LiveStreams.subscribe] <;> split
  · exact hexact.known
  · intro inst hinst
    rw [(foldl_subscribeQuote _ _ _).2.1]
    exact (mem_union_iff.1 hinst).imp_left (hexact.known inst)
  · exact hexact.refs
  · intro inst
    rw [(foldl_subscribeQuote _ _ _).2.2, hexact.refs]
    have hnew := hfresh inst
    grind
  · exact hexact.idle
  · exact fun hsub ↦ absurd hsub (by simp)

theorem step_spec {call : Call} :
    ((streams.apply call).Carried ↔ streams.Fresh call) ∧
      (streams.Fresh call → (streams.apply call).Exact) := by
  cases call with
  | subscribe instrs => exact ⟨carried_subscribe_iff hexact, hexact.subscribe⟩
  | unsubscribe instrs =>
    exact ⟨iff_of_true (hexact.unsubscribe instrs).carried trivial,
      fun _ ↦ hexact.unsubscribe instrs⟩
  | stop => exact ⟨iff_of_true hexact.stop.carried trivial, fun _ ↦ hexact.stop⟩

end

/-- After every call the wire carries what the feed wants, exactly in the runs
that never ask again for an instrument the subscription still knows. -/
theorem wire_carries_wanted_iff (calls : List Call) :
    Along apply (fun before call ↦ (before.apply call).Carried) idle calls ↔
      Along apply Fresh idle calls :=
  along_congr Exact (fun _ _ hexact ↦ step_spec hexact) exact_idle

/-- An instrument that is released while another is still wanted, and asked for
again, is wanted and not on the wire. -/
theorem resubscribed_not_on_wire :
    let tcs : Instrument := ⟨"NSE:EQUITY:TCS"⟩
    let infy : Instrument := ⟨"NSE:EQUITY:INFY"⟩
    let calls := [Call.subscribe [tcs, infy], .unsubscribe [tcs], .subscribe [tcs]]
    tcs ∈ (calls.foldl apply idle).wanted ∧ (calls.foldl apply idle).wire = [infy] := by
  decide

end LiveStreams

end Tradex.Runtime
