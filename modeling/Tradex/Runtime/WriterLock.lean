import Mathlib.Data.Int.Notation
import Tradex.Foundation.Protocol

/-!
# The single-writer lock

The lock file at the granularity of system calls: names, inodes, open files and the exclusive lock,
which is dropped when its file is closed or its process dies.
-/

namespace Tradex.Runtime.WriterLock

structure Inode where
  creator : Option ℤ
  recorded : Option ℤ
  flock : Option ℕ

structure OpenFile where
  pid : ℤ
  inode : ℕ
deriving DecidableEq

structure World where
  path : Option ℕ
  inodes : List Inode
  files : List OpenFile
  live : ℤ → Bool
  held : ℤ → Bool

inductive Call where
  | createExclusive (pid : ℤ)
  | openExisting (pid : ℤ)
  | tryFlock (pid : ℤ) (fd : ℕ)
  | readPidFromFd (pid : ℤ) (fd : ℕ)
  | readPid (pid : ℤ)
  | pidAlive (pid : ℤ) (target : ℤ)
  | truncate (pid : ℤ) (fd : ℕ)
  | writePid (pid : ℤ) (fd : ℕ)
  | setHeld (pid : ℤ) (held : Bool)
  | unlink (pid : ℤ)
  | unflock (pid : ℤ) (fd : ℕ)
  | close (pid : ℤ) (fd : ℕ)
  | crash (pid : ℤ)

abbrev Call.Res : Call → Type
  | .createExclusive _ => Option ℕ
  | .openExisting _ => Option ℕ
  | .tryFlock _ _ => Bool
  | .readPidFromFd _ _ => Option ℤ
  | .readPid _ => Option ℤ
  | .pidAlive _ _ => Bool
  | .truncate _ _ => Unit
  | .writePid _ _ => Unit
  | .setHeld _ _ => Unit
  | .unlink _ => Unit
  | .unflock _ _ => Unit
  | .close _ _ => Unit
  | .crash _ => Unit

namespace World

variable (world : World) (fd : ℕ)

def inodeOf : Option ℕ := (world.files[fd]?).map OpenFile.inode

def modifyFile (change : Inode → Inode) : World :=
  match world.inodeOf fd with
  | some inode => { world with inodes := world.inodes.modify inode change }
  | none => world

def nodeOf : Option Inode :=
  (world.inodeOf fd).bind fun inode ↦ world.inodes[inode]?

def createExclusive (pid : ℤ) : Option ℕ × World :=
  match world.path with
  | some _ => (none, world)
  | none => (some world.files.length,
      { world with
        path := some world.inodes.length
        inodes := world.inodes ++ [{ creator := some pid, recorded := none, flock := none }]
        files := world.files ++ [{ pid := pid, inode := world.inodes.length }] })

variable {pid : ℤ} {world : World} {inode : ℕ}

def openExisting (world : World) (pid : ℤ) : Option ℕ × World :=
  match world.path with
  | some inode => (some world.files.length,
      { world with files := world.files ++ [{ pid := pid, inode := inode }] })
  | none => (none, world)

theorem openExisting_of_some (hpath : world.path = some inode) :
    world.openExisting pid = (some world.files.length,
      { world with files := world.files ++ [{ pid := pid, inode := inode }] }) := by
  simp [openExisting, hpath]

def tryFlock (world : World) (fd : ℕ) : Bool × World :=
  match (world.nodeOf fd).bind Inode.flock with
  | some holder => (holder = fd, world)
  | none => (true, world.modifyFile fd fun node ↦ { node with flock := some fd })

def dropFlock (world : World) (fd : ℕ) : World :=
  world.modifyFile fd fun node ↦ { node with flock := if node.flock = some fd then none else node.flock }

def ownerOf (world : World) (fd : ℕ) : Option ℤ := (world.files[fd]?).map OpenFile.pid

def crash (world : World) (pid : ℤ) : World :=
  { world with
    live := fun other ↦ if other = pid then false else world.live other
    inodes := world.inodes.map fun node ↦
      { node with flock := node.flock.filter fun fd ↦ world.ownerOf fd ≠ some pid } }

end World

def perform : (call : Call) → World → call.Res × World
  | .createExclusive pid, world => world.createExclusive pid
  | .openExisting pid, world => world.openExisting pid
  | .tryFlock _ fd, world => world.tryFlock fd
  | .readPidFromFd _ fd, world => ((world.nodeOf fd).bind Inode.recorded, world)
  | .readPid _, world =>
    ((world.path.bind fun inode ↦ world.inodes[inode]?).bind Inode.recorded, world)
  | .pidAlive _ target, world => (decide (0 < target) && world.live target, world)
  | .truncate _ fd, world => ((), world.modifyFile fd fun node ↦ { node with recorded := none })
  | .writePid pid fd, world =>
    ((), world.modifyFile fd fun node ↦ { node with recorded := some pid })
  | .setHeld pid held, world =>
    ((), { world with held := fun other ↦ if other = pid then held else world.held other })
  | .unlink _, world => ((), { world with path := none })
  | .unflock _ fd, world => ((), world.dropFlock fd)
  | .close _ fd, world => ((), world.dropFlock fd)
  | .crash pid, world => ((), world.crash pid)

def Call.caller : Call → Option ℤ
  | .createExclusive pid | .openExisting pid | .tryFlock pid _ | .readPidFromFd pid _
  | .readPid pid | .pidAlive pid _ | .truncate pid _ | .writePid pid _ | .setHeld pid _
  | .unlink pid | .unflock pid _ | .close pid _ => some pid
  | .crash _ => none

def Call.unanswered : (call : Call) → call.Res
  | .createExclusive _ => none
  | .openExisting _ => none
  | .tryFlock _ _ => false
  | .readPidFromFd _ _ => none
  | .readPid _ => none
  | .pidAlive _ _ => false
  | .truncate _ _ | .writePid _ _ | .setHeld _ _ | .unlink _ | .unflock _ _ | .close _ _
  | .crash _ => ()

def exec (call : Call) (world : World) : call.Res × World :=
  if call.caller.all world.live then perform call world else (call.unanswered, world)

inductive LockError where
  | writerLockHeld (holder : Option ℤ)
  | retrying

abbrev LockProgram := Program Call Call.Res LockError

def act (call : Call) : LockProgram call.Res := Program.perform call

def writePid (pid : ℤ) (fd : ℕ) : LockProgram Unit := do
  act (.truncate pid fd)
  act (.writePid pid fd)

variable (pid : ℤ)

def takeover : LockProgram (Option ℕ) := do
  let opened : Option ℕ ← act (.openExisting pid)
  match opened with
  | none => pure none
  | some fd =>
    let claimed : Bool ← act (.tryFlock pid fd)
    if claimed then
      let holder : Option ℤ ← act (.readPidFromFd pid fd)
      match holder with
      | none => pure (some fd)
      | some target =>
        let alive : Bool ← act (.pidAlive pid target)
        if alive then
          act (.close pid fd)
          .raise (.writerLockHeld (some target))
        else pure (some fd)
    else
      let holder : Option ℤ ← act (.readPid pid)
      act (.close pid fd)
      .raise (.writerLockHeld holder)

def finishAcquire (fd : ℕ) : LockProgram ℕ := do
  writePid pid fd
  act (.setHeld pid true)
  pure fd

def acquire (pid : ℤ) : ℕ → LockProgram ℕ
  | 0 => .raise .retrying
  | retries + 1 => do
    let created : Option ℕ ← act (.createExclusive pid)
    match created with
    | some fd => finishAcquire pid fd
    | none =>
      let taken ← takeover pid
      match taken with
      | some fd => finishAcquire pid fd
      | none => acquire pid retries

def release : Option ℕ → LockProgram Unit
  | none => pure ()
  | some fd => do
    act (.setHeld pid false)
    act (.unlink pid)
    act (.unflock pid fd)
    act (.close pid fd)

inductive Command where
  | acquire (retries : ℕ)
  | release

def process (pid : ℤ) : Option ℕ → List Command → LockProgram Unit
  | _, [] => pure ()
  | object, .acquire retries :: rest => do
    let acquired ← Program.tryCatch
      (fun err ↦
        match err with
        | .writerLockHeld _ => pure none
        | .retrying => .raise .retrying)
      (do
        let fd ← acquire pid retries
        pure (some fd))
    match acquired with
    | some fd => process pid (some fd) rest
    | none => process pid object rest
  | object, .release :: rest => do
    release pid object
    process pid none rest

def crashes : List ℤ → LockProgram Unit
  | [] => pure ()
  | pid :: rest => do
    act (.crash pid)
    crashes rest

inductive Party where
  | process (pid : ℤ) (commands : List Command)
  | crashes (pids : List ℤ)

def Party.program : Party → LockProgram Unit
  | .process pid commands => WriterLock.process pid none commands
  | .crashes pids => WriterLock.crashes pids

def World.initial (live : ℤ → Bool) (remnant : Option ℤ) : World where
  path := remnant.map fun _ ↦ 0
  inodes := remnant.toList.map fun pid ↦ { creator := none, recorded := some pid, flock := none }
  files := []
  live := live
  held := fun _ ↦ false

def pool {Thread : Type} (world : World) (parties : Thread → Party) :
    Pool Thread Call Call.Res LockError Unit World :=
  ⟨world, fun tid ↦ (parties tid).program⟩

end Tradex.Runtime.WriterLock
