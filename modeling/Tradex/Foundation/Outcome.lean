/-!
# Outcomes and folds

What a computation that can fail returned, what a fold of such steps or of plain
ones keeps, and what holds at each event of a run.
-/

namespace Tradex

open List

section Outcome

variable {Err Input Output : Type} {first : Except Err Input} {res : Output}
  {next : Input → Except Err Output}

theorem except_bind_eq_ok (hok : first >>= next = .ok res) :
    ∃ val, first = .ok val ∧ next val = .ok res := by
  cases first with
  | error err => cases hok
  | ok val => exact ⟨val, rfl, hok⟩

theorem eq_ok_of_toOption {val : Input} (hsome : first.toOption = some val) : first = .ok val := by
  cases first with
  | error err => cases hsome
  | ok other =>
    cases hsome
    rfl

theorem except_bind_congr {other : Input → Except Err Output}
    (hnext : ∀ val, first = .ok val → next val = other val) : first >>= next = first >>= other := by
  cases first with
  | error err => rfl
  | ok val => exact hnext val rfl

theorem except_bind_eq_ok_iff :
    first >>= next = .ok res ↔ ∃ val, first = .ok val ∧ next val = .ok res := by
  refine ⟨except_bind_eq_ok, ?_⟩
  rintro ⟨val, rfl, hnext⟩
  exact hnext

theorem except_map_eq_ok {make : Input → Output} (hok : first.map make = .ok res) :
    ∃ val, first = .ok val ∧ make val = res := by
  cases first with
  | error err => cases hok
  | ok val =>
    cases hok
    exact ⟨val, rfl, rfl⟩

end Outcome

section Fold

variable {Err Item State View : Type} {step : State → Item → Except Err State}
  {start final : State} {items : List Item}

theorem foldl_invariant {step : State → Item → State} (kept : State → Prop) (hstart : kept start)
    (hstep : ∀ st, ∀ item ∈ items, kept st → kept (step st item)) :
    kept (items.foldl step start) := by
  induction items generalizing start with
  | nil => exact hstart
  | cons item rest ih =>
    refine ih (hstep start item mem_cons_self hstart) ?_
    intro st other hother hkept
    exact hstep st other (mem_cons_of_mem item hother) hkept

theorem foldlM_congr {other : State → Item → Except Err State}
    (hsteps : ∀ item ∈ items, ∀ st, step st item = other st item) (start : State) :
    items.foldlM step start = items.foldlM other start := by
  induction items generalizing start with
  | nil => rfl
  | cons item rest ih =>
    rw [foldlM_cons, hsteps item mem_cons_self start]
    refine congrArg _ (funext fun next ↦ ih (fun later hlate ↦ ?_) next)
    exact hsteps later (mem_cons_of_mem item hlate)

theorem foldlM_invariant {kept : State → Prop} (hstart : kept start)
    (hstep : ∀ {st item next}, item ∈ items → kept st → step st item = .ok next →
      kept next) (hfold : items.foldlM step start = .ok final) : kept final := by
  induction items generalizing start with
  | nil =>
    cases hfold
    exact hstart
  | cons item rest ih =>
    obtain ⟨next, hnext, hrest⟩ := except_bind_eq_ok hfold
    refine ih (hstep mem_cons_self hstart hnext) (fun hitem ↦ ?_) hrest
    exact hstep (mem_cons_of_mem item hitem)

theorem foldlM_skip {later : List Item} {item : Item}
    (hskip : ∀ st, items.foldlM step start = .ok st → step st item = .ok st) :
    (items ++ item :: later).foldlM step start = (items ++ later).foldlM step start := by
  rw [foldlM_append, foldlM_append]
  cases hitems : items.foldlM step start with
  | error err => rfl
  | ok st =>
    change (item :: later).foldlM step st = later.foldlM step st
    rw [foldlM_cons, hskip st hitems]
    rfl

/-- A fold over richer states has the plain fold in view. -/
theorem foldlM_view {view : State → View} {move : View → Item → View}
    (hstep : ∀ st item next, step st item = .ok next → view next = move (view st) item)
    (hfold : items.foldlM step start = .ok final) : view final = items.foldl move (view start) := by
  induction items generalizing start with
  | nil =>
    cases hfold
    rfl
  | cons item rest ih =>
    obtain ⟨next, hnext, hrest⟩ := except_bind_eq_ok hfold
    rw [ih hrest, hstep start item next hnext, foldl_cons]

end Fold

variable {State Event : Type} {step : State → Event → State}

/-- A property of the state before each event and of the event, along a run. -/
def Along (step : State → Event → State) (holds : State → Event → Prop) :
    State → List Event → Prop
  | _, [] => True
  | st, ev :: rest => holds st ev ∧ Along step holds (step st ev) rest

variable {events : List Event} {holds given : State → Event → Prop}

theorem Along.imp_of_invariant {st : State}
    (halong : Along step given st events) {kept : State → Prop} (hkept : kept st)
    (hstep : ∀ st ev, kept st → given st ev →
      holds st ev ∧ kept (step st ev)) : Along step holds st events := by
  induction events generalizing st with
  | nil => trivial
  | cons ev rest ih =>
    obtain ⟨hhold, hnext⟩ := hstep st ev hkept halong.1
    exact ⟨hhold, ih halong.2 hnext⟩

theorem along_congr (kept : State → Prop)
    (hstep : ∀ st ev, kept st →
      (given st ev ↔ holds st ev) ∧ (holds st ev → kept (step st ev)))
    {st : State} (hkept : kept st) :
    Along step given st events ↔ Along step holds st events := by
  induction events generalizing st with
  | nil => exact Iff.rfl
  | cons ev rest ih =>
    obtain ⟨hiff, hnext⟩ := hstep st ev hkept
    rw [Along, hiff]
    exact and_congr_right fun hhold ↦ ih (hnext hhold)

end Tradex
