import Mathlib.Data.Int.Notation
import Mathlib.Data.Rat.Init
import Mathlib.Data.List.Induction

/-!
# Pickled objects

An object is written as the program of a stack machine that rebuilds it, and a class that it names
is looked up, which may be restricted to some globals.
-/

namespace Tradex.Pickle

open List

structure Global where
  module : String
  name : String
deriving DecidableEq

inductive Atom where
  | none
  | bool (value : Bool)
  | int (value : ℤ)
  | float (value : ℚ)
  | str (value : String)
  | bytes (value : List ℕ)
deriving DecidableEq

inductive Node where
  | atom (value : Atom)
  | tuple (items : List Node)
  | list (items : List Node)
  | dict (items : List Node)
  | global (name : Global)
  | call (function : Global) (arguments : List Node)
  | object (cls : Global) (state : Node)

inductive Opcode where
  | push (value : Atom)
  | mark
  | tuple
  | emptyList
  | appends
  | emptyDict
  | setitems
  | stackGlobal
  | reduce
  | newobj
  | build
  | stop
deriving DecidableEq

def Global.dump (name : Global) : List Opcode :=
  [.push (.str name.module), .push (.str name.name), .stackGlobal]

mutual

def Node.dump : Node → List Opcode
  | .atom val => [.push val]
  | .tuple items => .mark :: (dumpAll items ++ [.tuple])
  | .list items => .emptyList :: .mark :: (dumpAll items ++ [.appends])
  | .dict items => .emptyDict :: .mark :: (dumpAll items ++ [.setitems])
  | .global name => name.dump
  | .call function arguments => function.dump ++ .mark :: (dumpAll arguments ++ [.tuple, .reduce])
  | .object cls st => cls.dump ++ .mark :: .tuple :: .newobj :: (st.dump ++ [.build])

def Node.dumpAll : List Node → List Opcode
  | [] => []
  | item :: rest => item.dump ++ dumpAll rest

end

def dumps (node : Node) : List Opcode := node.dump ++ [.stop]

mutual

def Node.globals : Node → List Global
  | .atom _ => []
  | .tuple items => globalsAll items
  | .list items => globalsAll items
  | .dict items => globalsAll items
  | .global name => [name]
  | .call function arguments => function :: globalsAll arguments
  | .object cls st => cls :: st.globals

def Node.globalsAll : List Node → List Global
  | [] => []
  | item :: rest => item.globals ++ globalsAll rest

end

inductive Slot where
  | node (value : Node)
  | mark
  | blank (cls : Global)

inductive LoadError where
  | refused (name : Global)
  | corrupt
deriving DecidableEq

def collect : List Slot → Option (List Node × List Slot)
  | .mark :: below => some ([], below)
  | .node item :: rest => (collect rest).map fun found ↦ (found.1 ++ [item], found.2)
  | _ => none

section Machine

variable (allowed : Global → Bool)

def findClass (name : Global) : Except LoadError Node :=
  if allowed name then .ok (.global name) else .error (.refused name)

def step : Opcode → List Slot → Except LoadError (List Slot)
  | .push val, stack => .ok (.node (.atom val) :: stack)
  | .mark, stack => .ok (.mark :: stack)
  | .tuple, stack =>
    match collect stack with
    | some (items, below) => .ok (.node (.tuple items) :: below)
    | none => .error .corrupt
  | .emptyList, stack => .ok (.node (.list []) :: stack)
  | .appends, stack =>
    match collect stack with
    | some (items, .node (.list before) :: below) => .ok (.node (.list (before ++ items)) :: below)
    | _ => .error .corrupt
  | .emptyDict, stack => .ok (.node (.dict []) :: stack)
  | .setitems, stack =>
    match collect stack with
    | some (items, .node (.dict before) :: below) => .ok (.node (.dict (before ++ items)) :: below)
    | _ => .error .corrupt
  | .stackGlobal, .node (.atom (.str name)) :: .node (.atom (.str module)) :: below =>
    (findClass allowed ⟨module, name⟩).map fun found ↦ .node found :: below
  | .reduce, .node (.tuple arguments) :: .node (.global function) :: below =>
    .ok (.node (.call function arguments) :: below)
  | .newobj, .node (.tuple []) :: .node (.global cls) :: below => .ok (.blank cls :: below)
  | .build, .node st :: .blank cls :: below => .ok (.node (.object cls st) :: below)
  | _, _ => .error .corrupt

def run : List Opcode → List Slot → Except LoadError Node
  | [], _ => .error .corrupt
  | .stop :: _, .node res :: _ => .ok res
  | op :: rest, stack => (step allowed op stack).bind (run rest)

def loads (pickle : List Opcode) : Except LoadError Node := run allowed pickle []

end Machine

variable {allowed : Global → Bool} {Output : Type}

def guarded (allowed : Global → Bool) (names : List Global) (next : Except LoadError Output) :
    Except LoadError Output :=
  match names.find? fun name ↦ !allowed name with
  | some name => .error (.refused name)
  | none => next

theorem guarded_append (first second : List Global) (next : Except LoadError Output) :
    guarded allowed (first ++ second) next = guarded allowed first (guarded allowed second next) := by
  unfold guarded
  rw [find?_append]
  cases first.find? fun name ↦ !allowed name <;> rfl

theorem guarded_cons (name : Global) (rest : List Global) (next : Except LoadError Output) :
    guarded allowed (name :: rest) next = guarded allowed [name] (guarded allowed rest next) :=
  guarded_append [name] rest next

theorem guarded_eq_ok_iff {names : List Global} {val : Output} :
    guarded allowed names (.ok val) = .ok val ↔ ∀ name ∈ names, allowed name = true := by
  unfold guarded
  cases hfind : names.find? fun name ↦ !allowed name with
  | none => simpa using hfind
  | some name =>
    have hmem := mem_of_find?_eq_some hfind
    have href : allowed name = false := by simpa using find?_some hfind
    refine iff_of_false nofun fun hall ↦ ?_
    rw [hall name hmem] at href
    cases href

variable {below : List Slot} {items : List Node} {rest : List Opcode} {node : Node}

theorem collect_marked :
    collect (items.reverse.map Slot.node ++ .mark :: below) = some (items, below) := by
  induction items using reverseRecOn with
  | nil => rfl
  | append_singleton items item ih =>
    rw [reverse_append, reverse_singleton, singleton_append, map_cons, cons_append, collect, ih]
    rfl

theorem run_tuple {items : List Node} {rest : List Opcode} {below : List Slot} :
    run allowed (.tuple :: rest) (items.reverse.map Slot.node ++ .mark :: below) =
      run allowed rest (.node (.tuple items) :: below) := by
  have hstep : step allowed .tuple (items.reverse.map Slot.node ++ .mark :: below) =
      .ok (.node (.tuple items) :: below) := by
    rw [step, collect_marked]
  rw [run, hstep]
  · rfl
  · nofun

theorem run_appends :
    run allowed (.appends :: rest)
        (items.reverse.map Slot.node ++ .mark :: .node (.list []) :: below) =
      run allowed rest (.node (.list items) :: below) := by
  have hstep : step allowed .appends
      (items.reverse.map Slot.node ++ .mark :: .node (.list []) :: below) =
        .ok (.node (.list items) :: below) := by
    rw [step, collect_marked]
    rfl
  rw [run, hstep]
  · rfl
  · nofun

theorem run_setitems :
    run allowed (.setitems :: rest)
        (items.reverse.map Slot.node ++ .mark :: .node (.dict []) :: below) =
      run allowed rest (.node (.dict items) :: below) := by
  have hstep : step allowed .setitems
      (items.reverse.map Slot.node ++ .mark :: .node (.dict []) :: below) =
        .ok (.node (.dict items) :: below) := by
    rw [step, collect_marked]
    rfl
  rw [run, hstep]
  · rfl
  · nofun

theorem run_global {name : Global} {stack : List Slot} :
    run allowed (name.dump ++ rest) stack =
      guarded allowed [name] (run allowed rest (.node (.global name) :: stack)) := by
  by_cases hallow : allowed name = true
  · simp [Global.dump, run, step, findClass, guarded, hallow, Except.map, Except.bind]
  · simp [Global.dump, run, step, findClass, guarded, hallow, Except.map, Except.bind]

mutual

theorem run_dump {rest : List Opcode} {stack : List Slot} : (node : Node) →
    run allowed (node.dump ++ rest) stack =
      guarded allowed node.globals (run allowed rest (.node node :: stack))
  | .atom val => rfl
  | .tuple items => by
    rw [Node.dump, cons_append, append_assoc]
    exact (run_dumpAll items).trans (congrArg _ (run_tuple))
  | .list items => by
    rw [Node.dump, cons_append, cons_append, append_assoc]
    exact (run_dumpAll items).trans (congrArg _ run_appends)
  | .dict items => by
    rw [Node.dump, cons_append, cons_append, append_assoc]
    exact (run_dumpAll items).trans (congrArg _ run_setitems)
  | .global name => run_global
  | .call function arguments => by
    rw [Node.dump, append_assoc, run_global, cons_append, append_assoc,
      Node.globals, guarded_cons function (Node.globalsAll arguments)]
    exact congrArg _ ((run_dumpAll arguments).trans
      (congrArg _ (run_tuple)))
  | .object cls st => by
    rw [Node.dump, append_assoc, run_global, cons_append, cons_append,
      cons_append, append_assoc, Node.globals, guarded_cons cls st.globals]
    exact congrArg _ (run_dump st)

theorem run_dumpAll {rest : List Opcode} {stack : List Slot} : (items : List Node) →
    run allowed (Node.dumpAll items ++ rest) stack =
      guarded allowed (Node.globalsAll items)
        (run allowed rest (items.reverse.map Slot.node ++ stack))
  | [] => rfl
  | item :: more => by
    rw [Node.dumpAll, append_assoc, run_dump item, run_dumpAll more,
      Node.globalsAll, guarded_append, reverse_cons, map_append, append_assoc]
    rfl

end

theorem loads_dumps : loads allowed (dumps node) = guarded allowed node.globals (.ok node) := by
  rw [loads, dumps, run_dump]
  rfl

end Tradex.Pickle
