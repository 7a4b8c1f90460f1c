import Tradex.Runtime.WriterLock

/-!
# The phases of a writer

What claim a process has on the lock, and what it is doing with a file that is not its claim.
-/

namespace Tradex.Runtime.WriterLock

open World Protocol Option

inductive Claim where
  | free
  | making (fd : ℕ) (created : Bool)
  | made (fd : ℕ) (created : Bool)
  | leaving (fd : ℕ) (created : Bool)

inductive Attempt where
  | none
  | opened (fd : ℕ)
  | locked (fd : ℕ)
  | closing (fd : ℕ)

inductive Phase where
  | crashes
  | process (pid : ℤ) (claim : Claim) (attempt : Attempt)

def Claim.fd? : Claim → Option ℕ
  | .free => none
  | .making fd _ | .made fd _ | .leaving fd _ => some fd

def Claim.IsMaking : Claim → Prop
  | .making _ _ => True
  | _ => False

def Attempt.fd? : Attempt → Option ℕ
  | .none => Option.none
  | .opened fd | .locked fd | .closing fd => some fd

def Phase.Allowed : Phase → Call → Prop
  | .crashes, .crash _ => True
  | .crashes, _ => False
  | .process pid _ attempt, .createExclusive caller => caller = pid ∧ attempt = .none
  | .process pid claim attempt, .openExisting caller =>
    caller = pid ∧ attempt = .none ∧ ¬claim.IsMaking
  | .process pid _ attempt, .tryFlock caller fd => caller = pid ∧ attempt = .opened fd
  | .process pid _ _, .readPidFromFd caller _ => caller = pid
  | .process pid _ _, .readPid caller => caller = pid
  | .process pid _ attempt, .pidAlive caller _ => caller = pid ∧ ∃ fd, attempt = .locked fd
  | .process pid claim attempt, .truncate caller fd =>
    caller = pid ∧ (attempt = .locked fd ∨ attempt = .none ∧ claim = .making fd true)
  | .process pid claim attempt, .writePid caller fd =>
    caller = pid ∧ attempt = .none ∧ ∃ created, claim = .making fd created
  | .process pid claim attempt, .setHeld caller _ =>
    caller = pid ∧ attempt = .none ∧ ∃ fd created, claim = .made fd created
  | .process pid claim attempt, .unlink caller =>
    caller = pid ∧ attempt = .none ∧ ∃ fd created, claim = .leaving fd created
  | .process pid _ attempt, .unflock caller fd => caller = pid ∧ attempt = .closing fd
  | .process pid _ attempt, .close caller fd => caller = pid ∧ attempt = .closing fd
  | .process _ _ _, .crash _ => False

def Phase.next : Phase → (call : Call) → call.Res → Phase
  | .process pid claim attempt, .createExclusive _, ans =>
    match (ans : Option ℕ) with
    | some fd => .process pid (.making fd true) .none
    | none => .process pid claim attempt
  | .process pid claim attempt, .openExisting _, ans =>
    match (ans : Option ℕ) with
    | some fd => .process pid claim (.opened fd)
    | none => .process pid claim attempt
  | .process pid claim _, .tryFlock _ fd, ans =>
    .process pid claim (if (ans : Bool) then .locked fd else .closing fd)
  | .process pid claim (.locked fd), .pidAlive _ _, ans =>
    .process pid claim (if (ans : Bool) then .closing fd else .locked fd)
  | .process pid _ (.locked _), .truncate _ fd, _ => .process pid (.making fd false) .none
  | .process pid (.making fd created) attempt, .writePid _ _, _ =>
    .process pid (.made fd created) attempt
  | .process pid (.made fd created) attempt, .setHeld _ false, _ =>
    .process pid (.leaving fd created) attempt
  | .process pid (.leaving fd _) _, .unlink _, _ => .process pid .free (.closing fd)
  | .process pid claim _, .close _ _, _ => .process pid claim .none
  | phase, _, _ => phase

def protocol : Protocol Call Call.Res Phase := ⟨Phase.Allowed, Phase.next⟩

variable (pid : ℤ)

def Acquired (claim : Claim) (final : Phase) : Except LockError ℕ → Prop
  | .ok fd => ∃ created, final = .process pid (.made fd created) .none
  | .error (.writerLockHeld _) => final = .process pid claim .none
  | .error .retrying => True

variable {claim : Claim} {object : Option ℕ}

theorem follows_finishAcquire_created (fd : ℕ) :
    protocol.Follows (.process pid (.making fd true) .none) (finishAcquire pid fd)
      (Acquired pid claim) :=
  ⟨⟨rfl, .inr ⟨rfl, rfl⟩⟩, fun _ ↦ ⟨⟨rfl, rfl, true, rfl⟩, fun _ ↦
    ⟨⟨rfl, rfl, fd, true, rfl⟩, fun _ ↦ ⟨true, rfl⟩⟩⟩⟩

theorem follows_finishAcquire_locked (fd : ℕ) :
    protocol.Follows (.process pid claim (.locked fd)) (finishAcquire pid fd)
      (Acquired pid claim) :=
  ⟨⟨rfl, .inl rfl⟩, fun _ ↦ ⟨⟨rfl, rfl, false, rfl⟩, fun _ ↦
    ⟨⟨rfl, rfl, fd, false, rfl⟩, fun _ ↦ ⟨false, rfl⟩⟩⟩⟩

def Taken (claim : Claim) (final : Phase) : Except LockError (Option ℕ) → Prop
  | .ok (some fd) => final = .process pid claim (.locked fd)
  | .ok none => final = .process pid claim .none
  | .error (.writerLockHeld _) => final = .process pid claim .none
  | .error .retrying => True

theorem follows_takeover (hclaim : ¬claim.IsMaking) :
    protocol.Follows (.process pid claim .none) (takeover pid) (Taken pid claim) := by
  refine ⟨⟨rfl, rfl, hclaim⟩, fun opened ↦ ?_⟩
  cases opened with
  | none => exact rfl
  | some fd =>
    refine ⟨⟨rfl, rfl⟩, fun claimed ↦ ?_⟩
    cases claimed with
    | false => exact ⟨rfl, fun _ ↦ ⟨⟨rfl, rfl⟩, fun _ ↦ rfl⟩⟩
    | true =>
      refine ⟨rfl, fun holder ↦ ?_⟩
      cases holder with
      | none => exact rfl
      | some target =>
        refine ⟨⟨rfl, fd, rfl⟩, fun alive ↦ ?_⟩
        cases alive with
        | false => exact rfl
        | true => exact ⟨⟨rfl, rfl⟩, fun _ ↦ rfl⟩

theorem follows_acquire {pid : ℤ} (hclaim : ¬claim.IsMaking) {retries : ℕ} :
    protocol.Follows (.process pid claim .none) (acquire pid retries) (Acquired pid claim) := by
  induction retries with
  | zero => exact trivial
  | succ retries ih =>
    refine ⟨⟨rfl, rfl⟩, fun created ↦ ?_⟩
    cases created with
    | some fd => exact follows_finishAcquire_created pid fd
    | none =>
      change protocol.Follows (.process pid claim .none) (takeover pid >>= fun taken ↦ _) _
      apply follows_bind
      apply follows_mono (follows_takeover pid hclaim)
      intro fin out hout
      match out, hout with
      | .ok (some fd), hfin => exact hfin ▸ follows_finishAcquire_locked pid fd
      | .ok none, hfin => exact hfin ▸ ih
      | .error (.writerLockHeld _), hfin => exact hfin
      | .error .retrying, _ => trivial

def Matches : Option ℕ → Claim → Prop
  | none, claim => claim = .free
  | some fd, claim => ∃ created, claim = .made fd created

theorem Matches.not_isMaking (hmatch : Matches object claim) : ¬claim.IsMaking := by
  cases object with
  | none => exact hmatch ▸ id
  | some fd =>
    obtain ⟨created, rfl⟩ := hmatch
    exact id

theorem follows_process {pid : ℤ} {commands : List Command} (hmatch : Matches object claim) :
    protocol.Follows (.process pid claim .none) (process pid object commands) fun _ _ ↦ True := by
  induction commands generalizing object claim with
  | nil => exact trivial
  | cons command rest ih =>
    cases command with
    | acquire retries =>
      apply follows_bind
      apply follows_tryCatch
      apply follows_bind
      apply follows_mono (follows_acquire hmatch.not_isMaking)
      intro fin out hout
      match out, hout with
      | .ok fd, ⟨created, hfin⟩ => exact hfin ▸ ih ⟨created, rfl⟩
      | .error (.writerLockHeld _), hfin => exact hfin ▸ ih hmatch
      | .error .retrying, _ => trivial
    | release =>
      cases object with
      | none =>
        obtain rfl : claim = .free := hmatch
        exact ih rfl
      | some fd =>
        obtain ⟨created, rfl⟩ := hmatch
        refine ⟨⟨rfl, rfl, fd, created, rfl⟩, fun _ ↦ ⟨⟨rfl, rfl, fd, created, rfl⟩, fun _ ↦ ?_⟩⟩
        exact ⟨⟨rfl, rfl⟩, fun _ ↦ ⟨⟨rfl, rfl⟩, fun _ ↦ ih rfl⟩⟩

theorem follows_crashes (pids : List ℤ) :
    protocol.Follows .crashes (crashes pids) fun _ _ ↦ True := by
  induction pids with
  | nil => exact trivial
  | cons pid rest ih => exact ⟨trivial, fun _ ↦ ih⟩

def Party.phase : Party → Phase
  | .process pid _ => .process pid .free .none
  | .crashes _ => .crashes

theorem Party.follows (party : Party) :
    protocol.Follows party.phase party.program fun _ _ ↦ True := by
  cases party with
  | process pid commands => exact follows_process rfl
  | crashes pids => exact follows_crashes pids

def Claim.Backed (node : Inode) : Claim → Prop
  | .free => True
  | .making _ true => node.creator = some pid ∧ node.recorded = none
  | .made _ true | .leaving _ true => node.creator = some pid ∧ node.recorded = some pid
  | .making fd false | .made fd false | .leaving fd false => node.flock = some fd

def Claim.Standing (world : World) (pid : ℤ) (claim : Claim) : Prop :=
  ∀ fd, claim.fd? = some fd → ∃ inode node, world.files[fd]? = some ⟨pid, inode⟩ ∧
    world.path = some inode ∧ world.inodes[inode]? = some node ∧ claim.Backed pid node

def Attempt.Supported (world : World) (pid : ℤ) (attempt : Attempt) : Prop :=
  ∀ fd, attempt.fd? = some fd → ∃ inode node, world.files[fd]? = some ⟨pid, inode⟩ ∧
    world.inodes[inode]? = some node ∧ (attempt = .locked fd → node.flock = some fd)

structure Sound (world : World) (pid : ℤ) (claim : Claim) (attempt : Attempt) : Prop where
  standing : claim.Standing world pid
  supported : attempt.Supported world pid
  apart : ∀ fd, claim.fd? = some fd → attempt.fd? ≠ some fd
  undivided : claim.IsMaking → attempt = .none
  held : world.held pid = true → ∃ fd created, claim = .made fd created

structure Keeps (world world' : World) (mine : ℕ → Prop) : Prop where
  files : ∀ (fd : ℕ) (file : OpenFile), world.files[fd]? = some file → world'.files[fd]? = some file
  nodes : ∀ (inode : ℕ) (node : Inode), world.inodes[inode]? = some node →
    ∃ node', world'.inodes[inode]? = some node' ∧ node'.creator = node.creator ∧
      ∀ fd, mine fd → node.flock = some fd → node'.flock = some fd

structure KeepsTexts (world world' : World) (mine : ℕ → Prop) : Prop extends
    Keeps world world' mine where
  path : world'.path = world.path
  texts : ∀ (inode : ℕ) (node node' : Inode), world.inodes[inode]? = some node →
    world'.inodes[inode]? = some node' → node'.recorded = node.recorded

section Frame

variable {world world' : World} {pid : ℤ} {attempt : Attempt} {mine : ℕ → Prop}

theorem Claim.Backed.congr {node node' : Inode} (hback : claim.Backed pid node)
    (hcreat : node'.creator = node.creator) (hrec : node'.recorded = node.recorded)
    (hflock : ∀ fd, claim.fd? = some fd → node.flock = some fd → node'.flock = some fd) :
    claim.Backed pid node' := by
  match claim with
  | .free => trivial
  | .making _ true | .made _ true | .leaving _ true =>
    exact ⟨hcreat.trans hback.1, hrec.trans hback.2⟩
  | .making fd false | .made fd false | .leaving fd false => exact hflock fd rfl hback

theorem Claim.Standing.keep (hstand : claim.Standing world pid)
    (hkeep : KeepsTexts world world' mine) (hmine : ∀ fd, claim.fd? = some fd → mine fd) :
    claim.Standing world' pid := by
  intro fd hfd
  obtain ⟨inode, node, hfile, hpath, hnode, hback⟩ := hstand fd hfd
  obtain ⟨node', hnode', hcreat, hflock⟩ := hkeep.nodes inode node hnode
  refine ⟨inode, node', hkeep.files fd _ hfile, hkeep.path.trans hpath, hnode', ?_⟩
  apply hback.congr hcreat (hkeep.texts inode node node' hnode hnode')
  intro fd' hfd' hlock
  exact hflock fd' (hmine fd' hfd') hlock

theorem Attempt.Supported.keep (hsupported : attempt.Supported world pid)
    (hkeep : Keeps world world' mine) (hmine : ∀ fd, attempt = .locked fd → mine fd) :
    attempt.Supported world' pid := by
  intro fd hfd
  obtain ⟨inode, node, hfile, hnode, hlock⟩ := hsupported fd hfd
  obtain ⟨node', hnode', -, hflock⟩ := hkeep.nodes inode node hnode
  exact ⟨inode, node', hkeep.files fd _ hfile, hnode', fun heq ↦
    hflock fd (hmine fd heq) (hlock heq)⟩

theorem Claim.standing_free : Claim.free.Standing world pid := nofun

theorem Sound.idle (hstand : claim.Standing world pid)
    (hheld : world.held pid = true → ∃ fd created, claim = .made fd created) :
    Sound world pid claim .none :=
  ⟨hstand, nofun, fun _ _ ↦ nofun, fun _ ↦ rfl, hheld⟩

section

variable (hsound : Sound world pid claim attempt)

include hsound

theorem Sound.keep (hkeep : KeepsTexts world world' mine)
    (hheld : world'.held pid = world.held pid) (hclaim : ∀ fd, claim.fd? = some fd → mine fd)
    (hatt : ∀ fd, attempt = .locked fd → mine fd) : Sound world' pid claim attempt where
  standing := hsound.standing.keep hkeep hclaim
  supported := hsound.supported.keep hkeep.toKeeps hatt
  apart := hsound.apart
  undivided := hsound.undivided
  held := fun hnow ↦ hsound.held (hheld.symm.trans hnow)

theorem Sound.keep_free (hfree : claim = .free) (hkeep : Keeps world world' mine)
    (hheld : world'.held pid = world.held pid)
    (hatt : ∀ fd, attempt = .locked fd → mine fd) : Sound world' pid claim attempt where
  standing := hfree ▸ Claim.standing_free
  supported := hsound.supported.keep hkeep hatt
  apart := hsound.apart
  undivided := hsound.undivided
  held := fun hnow ↦ hsound.held (hheld.symm.trans hnow)

theorem Sound.claim_owner {fd : ℕ} (hfd : claim.fd? = some fd) : world.ownerOf fd = some pid := by
  obtain ⟨inode, node, hfile, -⟩ := hsound.standing fd hfd
  rw [ownerOf, hfile]
  rfl

theorem Sound.attempt_owner {fd : ℕ}
    (hfd : attempt.fd? = some fd) : world.ownerOf fd = some pid := by
  obtain ⟨inode, node, hfile, -⟩ := hsound.supported fd hfd
  rw [ownerOf, hfile]
  rfl

end

theorem inodeOf_of_file {fd inode : ℕ} (hfile : world.files[fd]? = some ⟨pid, inode⟩) :
    world.inodeOf fd = some inode := by
  rw [inodeOf, hfile]
  rfl

theorem nodeOf_of_file {fd inode : ℕ} {node : Inode} (hfile : world.files[fd]? = some ⟨pid, inode⟩)
    (hnode : world.inodes[inode]? = some node) : world.nodeOf fd = some node := by
  rw [nodeOf, inodeOf_of_file hfile, bind_some, hnode]

end Frame

variable {world : World} {mine : ℕ → Prop}

theorem keepsTexts_setHeld (held : ℤ → Bool) :
    KeepsTexts world { world with held := held } mine where
  files := fun _ _ hfile ↦ hfile
  nodes := fun _ node hnode ↦ ⟨node, hnode, rfl, fun _ _ hflock ↦ hflock⟩
  path := rfl
  texts := fun _ _ _ hnode hnode' ↦ by rw [some.inj (hnode.symm.trans hnode')]

theorem keeps_unlink : Keeps world { world with path := none } mine where
  files := fun _ _ hfile ↦ hfile
  nodes := fun _ node hnode ↦ ⟨node, hnode, rfl, fun _ _ hflock ↦ hflock⟩

theorem getElem?_append_some {Item : Type} {items : List Item} {index : ℕ} {item : Item}
    (more : List Item) (hitem : items[index]? = some item) :
    (items ++ more)[index]? = some item := by
  rw [List.getElem?_append_left (List.getElem?_eq_some_iff.mp hitem).1]
  exact hitem

theorem keepsTexts_open (file : OpenFile) :
    KeepsTexts world { world with files := world.files ++ [file] } mine where
  files := fun _ _ hfile ↦ getElem?_append_some _ hfile
  nodes := fun _ node hnode ↦ ⟨node, hnode, rfl, fun _ _ hflock ↦ hflock⟩
  path := rfl
  texts := fun _ _ _ hnode hnode' ↦ by rw [some.inj (hnode.symm.trans hnode')]

theorem keeps_create (path : Option ℕ) (node : Inode) (file : OpenFile) :
    Keeps world { world with
      path := path, inodes := world.inodes ++ [node], files := world.files ++ [file] } mine where
  files := fun _ _ hfile ↦ getElem?_append_some _ hfile
  nodes := fun _ node hnode ↦
    ⟨node, getElem?_append_some _ hnode, rfl, fun _ _ hflock ↦ hflock⟩

section Modify

variable {fd : ℕ} {change : Inode → Inode}

@[simp] theorem files_modifyFile : (world.modifyFile fd change).files = world.files := by
  unfold modifyFile
  split <;> rfl

@[simp] theorem path_modifyFile : (world.modifyFile fd change).path = world.path := by
  unfold modifyFile
  split <;> rfl

@[simp] theorem live_modifyFile : (world.modifyFile fd change).live = world.live := by
  unfold modifyFile
  split <;> rfl

@[simp] theorem held_modifyFile : (world.modifyFile fd change).held = world.held := by
  unfold modifyFile
  split <;> rfl

theorem getElem?_modifyFile (inode : ℕ) :
    (world.modifyFile fd change).inodes[inode]? =
      if world.inodeOf fd = some inode then (world.inodes[inode]?).map change
      else world.inodes[inode]? := by
  unfold modifyFile
  cases hinode : world.inodeOf fd with
  | none => rfl
  | some target =>
    by_cases htgt : target = inode
    · subst htgt
      simp
    · simp [htgt]

theorem getElem?_modifyFile_self {inode : ℕ} {node : Inode} (hinode : world.inodeOf fd = some inode)
    (hnode : world.inodes[inode]? = some node) :
    (world.modifyFile fd change).inodes[inode]? = some (change node) := by
  rw [getElem?_modifyFile, if_pos hinode, hnode]
  rfl

theorem keeps_modifyFile (hcreat : ∀ node, (change node).creator = node.creator)
    (hflock : ∀ inode node, world.inodeOf fd = some inode → world.inodes[inode]? = some node →
      ∀ other, mine other → node.flock = some other → (change node).flock = some other) :
    Keeps world (world.modifyFile fd change) mine where
  files := fun _ _ hfile ↦ files_modifyFile.symm ▸ hfile
  nodes := by
    intro inode node hnode
    by_cases hinode : world.inodeOf fd = some inode
    · exact ⟨change node, getElem?_modifyFile_self hinode hnode, hcreat node,
        hflock inode node hinode hnode⟩
    · refine ⟨node, ?_, rfl, fun _ _ hlock ↦ hlock⟩
      rw [getElem?_modifyFile, if_neg hinode, hnode]

theorem keepsTexts_modifyFile (hcreat : ∀ node, (change node).creator = node.creator)
    (hrec : ∀ node, (change node).recorded = node.recorded)
    (hflock : ∀ inode node, world.inodeOf fd = some inode → world.inodes[inode]? = some node →
      ∀ other, mine other → node.flock = some other → (change node).flock = some other) :
    KeepsTexts world (world.modifyFile fd change) mine where
  toKeeps := keeps_modifyFile hcreat hflock
  path := path_modifyFile
  texts := by
    intro inode node node' hnode hnode'
    rw [getElem?_modifyFile, hnode] at hnode'
    split at hnode'
    · rw [← some.inj hnode']
      exact hrec node
    · rw [← some.inj hnode']

end Modify

theorem keepsTexts_dropFlock (fd : ℕ) (hmine : ¬mine fd) :
    KeepsTexts world (world.dropFlock fd) mine := by
  refine keepsTexts_modifyFile (fun _ ↦ rfl) (fun _ ↦ rfl) ?_
  intro inode node _ _ other hother hlock
  have hne : node.flock ≠ some fd := by
    rintro hfd
    rw [some.inj (hlock.symm.trans hfd)] at hother
    exact hmine hother
  exact (if_neg hne).trans hlock

theorem keepsTexts_flock {fd : ℕ} (hfree : (world.nodeOf fd).bind Inode.flock = none) :
    KeepsTexts world (world.modifyFile fd fun node ↦ { node with flock := some fd }) mine := by
  refine keepsTexts_modifyFile (fun _ ↦ rfl) (fun _ ↦ rfl) ?_
  intro inode node hinode hnode other _ hlock
  rw [nodeOf, hinode, bind_some, hnode, bind_some, hlock] at hfree
  cases hfree

theorem keepsTexts_crash (hmine : ∀ fd, mine fd → world.ownerOf fd ≠ some pid) :
    KeepsTexts world (world.crash pid) mine where
  files := fun _ _ hfile ↦ hfile
  nodes := by
    intro inode node hnode
    have hnode' := congrArg (Option.map fun node : Inode ↦ { node with
      flock := node.flock.filter fun fd ↦ decide (world.ownerOf fd ≠ some pid) }) hnode
    refine ⟨_, (List.getElem?_map ..).trans hnode', rfl, fun fd hfd hlock ↦ ?_⟩
    simp [hlock, hmine fd hfd]
  path := rfl
  texts := by
    intro inode node node' hnode hnode'
    rw [crash, List.getElem?_map, hnode] at hnode'
    rw [← Option.some.inj hnode']

end Tradex.Runtime.WriterLock
