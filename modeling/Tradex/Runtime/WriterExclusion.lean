import Tradex.Runtime.WriterPhases

/-!
# At most one live writer

The creator of a lock file claims it without locking it. In every interleaving in
which a process that takes the file over writes its id into stale files only, at most
one live process holds the lock.
-/

namespace Tradex.Runtime.WriterLock

open Phase World Function Option

variable {Thread : Type} {attempt : Attempt} {call : Call}

structure Holds (phases : Thread → Phase) (world : World) : Prop where
  named : ∀ inode, world.path = some inode → ∃ node, world.inodes[inode]? = some node
  distinct : ∀ {first second pid claim attempt claim' attempt'},
    phases first = .process pid claim attempt → phases second = .process pid claim' attempt' →
      first = second
  sound : ∀ {thread pid claim attempt}, phases thread = .process pid claim attempt →
    world.live pid = true → Sound world pid claim attempt
  single : ∀ {first second pid pid' claim claim' attempt attempt'},
    phases first = .process pid claim attempt → phases second = .process pid' claim' attempt' →
      world.live pid = true → world.live pid' = true → claim ≠ .free → claim' ≠ .free →
        first = second
  accounted : ∀ pid, world.held pid = true →
    ∃ thread claim attempt, phases thread = .process pid claim attempt

variable {claim' : Claim} {pid' : ℤ} {attempt' : Attempt}

section

variable {phases : Thread → Phase} {world : World} {tid : Thread} {pid : ℤ} {claim : Claim}

def WritesStale : Call → World → Prop
  | .truncate pid fd, world =>
    world.live pid = true → world.path = world.inodeOf fd ∧
      ∀ node ∈ world.nodeOf fd, (∀ target ∈ node.recorded, world.live target = false) ∧
        (node.recorded = none →
          ∀ creator ∈ node.creator, creator = pid ∨ world.live creator = false)
  | _, _ => True

instance (call : Call) (world : World) : Decidable (WritesStale call world) := by
  cases call <;> unfold WritesStale <;> infer_instance

theorem free_of_stale {fd : ℕ} (hhold : Holds phases world)
    (hphase : phases tid = .process pid claim (.locked fd)) (hlive : world.live pid = true)
    (hstale : WritesStale (.truncate pid fd) world) {other : Thread}
    (hphase' : phases other = .process pid' claim' attempt')
    (hlive' : world.live pid' = true) : claim' = .free := by
  have hsound := hhold.sound hphase hlive
  have hsound' := hhold.sound hphase' hlive'
  obtain ⟨inode, node, hfile, hnode, hlock⟩ := hsound.supported fd rfl
  obtain ⟨hpath, hcont⟩ := hstale hlive
  obtain ⟨hrec, hcreat⟩ := hcont node (nodeOf_of_file hfile hnode)
  rw [inodeOf_of_file hfile] at hpath
  -- The claim is on the very file that this process has locked.
  have hback : ∀ fd', claim'.fd? = some fd' → world.files[fd']? = some ⟨pid', inode⟩ ∧
      claim'.Backed pid' node := by
    intro fd' hfd'
    obtain ⟨inode', node', hfile', hpath', hnode', hback⟩ := hsound'.standing fd' hfd'
    obtain rfl := some.inj (hpath.symm.trans hpath')
    obtain rfl := some.inj (hnode.symm.trans hnode')
    exact ⟨hfile', hback⟩
  -- The lock belongs to one open file, and that is not the file of a claim.
  have hother : ∀ fd', claim'.fd? = some fd' → node.flock ≠ some fd' := by
    intro fd' hfd' hflock
    obtain rfl := some.inj ((hlock rfl).symm.trans hflock)
    obtain ⟨rfl, -⟩ := OpenFile.mk.inj (some.inj (hfile.symm.trans (hback fd hfd').1))
    obtain rfl := hhold.distinct hphase hphase'
    obtain ⟨-, rfl, rfl⟩ := process.inj (hphase.symm.trans hphase')
    exact hsound.apart fd hfd' rfl
  match claim' with
  | .free => rfl
  | .making fd' false | .made fd' false | .leaving fd' false =>
    exact absurd (hback fd' rfl).2 (hother fd' rfl)
  | .made fd' true | .leaving fd' true =>
    have hdead := hrec pid' (hback fd' rfl).2.2
    exact absurd hlive' (Bool.eq_false_iff.mp hdead)
  | .making fd' true =>
    obtain ⟨hmine, hnil⟩ := (hback fd' rfl).2
    rcases hcreat hnil pid' hmine with rfl | hdead
    · obtain rfl := hhold.distinct hphase hphase'
      obtain ⟨-, rfl, rfl⟩ := process.inj (hphase.symm.trans hphase')
      exact absurd (hsound.undivided trivial) nofun
    · exact absurd hlive' (Bool.eq_false_iff.mp hdead)

end

variable {claim : Claim} {attempt : Attempt}

section

variable {phases : Thread → Phase} {world world' : World} {tid : Thread}
  {pid : ℤ} {claim claim' : Claim} {attempt attempt' : Attempt}

section

variable (hhold : Holds phases world) {other : Thread}

include hhold

theorem Holds.others (hkeep : KeepsTexts world world' fun fd ↦ world.ownerOf fd ≠ some pid)
    (hheld : ∀ other, other ≠ pid → world'.held other = world.held other)
    (hphase : phases other = .process pid' claim attempt) (hpid : pid' ≠ pid)
    (hlive : world.live pid' = true) : Sound world' pid' claim attempt := by
  have hsound := hhold.sound hphase hlive
  apply hsound.keep hkeep (hheld pid' hpid)
  · intro fd hfd howner
    exact hpid (some.inj ((hsound.claim_owner hfd).symm.trans howner))
  · rintro fd rfl howner
    exact hpid (some.inj ((hsound.attempt_owner rfl).symm.trans howner))

theorem Holds.named_of_keeps {mine : ℕ → Prop} (hkeep : KeepsTexts world world' mine) (inode : ℕ)
    (hpath : world'.path = some inode) : ∃ node, world'.inodes[inode]? = some node := by
  obtain ⟨node, hnode⟩ := hhold.named inode (hkeep.path.symm.trans hpath)
  obtain ⟨node', hnode', -⟩ := hkeep.nodes inode node hnode
  exact ⟨node', hnode'⟩

theorem Holds.others_free (hphase : phases tid = .process pid claim attempt)
    (hlive : world.live pid = true) (hclaim : claim ≠ .free)
    (hphase' : phases other = .process pid' claim' attempt')
    (hpid : pid' ≠ pid) (hlive' : world.live pid' = true) : claim' = .free := by
  by_contra hclaim'
  obtain rfl := hhold.single hphase hphase' hlive hlive' hclaim hclaim'
  exact hpid (process.inj (hphase'.symm.trans hphase)).1

theorem Holds.named_modifyFile {fd : ℕ} {change : Inode → Inode} (inode : ℕ)
    (hpath : (world.modifyFile fd change).path = some inode) :
    ∃ node, (world.modifyFile fd change).inodes[inode]? = some node := by
  obtain ⟨node, hnode⟩ := hhold.named inode (path_modifyFile.symm.trans hpath)
  rw [getElem?_modifyFile, hnode]
  split
  · exact ⟨_, rfl⟩
  · exact ⟨_, rfl⟩

theorem holds_crash (pid : ℤ) : Holds phases (world.crash pid) := by
  have hkeep : KeepsTexts world (world.crash pid) fun fd ↦ world.ownerOf fd ≠ some pid :=
    keepsTexts_crash pid fun _ howner ↦ howner
  have hsurvives : ∀ other, (world.crash pid).live other = true →
      other ≠ pid ∧ world.live other = true := by
    intro other hlive
    by_cases hpid : other = pid
    · exact absurd ((if_pos hpid).symm.trans hlive) Bool.false_ne_true
    · exact ⟨hpid, (if_neg hpid).symm.trans hlive⟩
  constructor
  case named => exact hhold.named_of_keeps hkeep
  case distinct => exact hhold.distinct
  case sound =>
    intro other pid' claim attempt hphase hlive
    obtain ⟨hpid, hlive⟩ := hsurvives pid' hlive
    exact hhold.others hkeep (fun _ _ ↦ rfl) hphase hpid hlive
  case single =>
    intro first second pid₁ pid₂ claim₁ claim₂ attempt₁ attempt₂ hfst hsnd hlive₁ hlive₂
    exact hhold.single hfst hsnd (hsurvives pid₁ hlive₁).2 (hsurvives pid₂ hlive₂).2
  case accounted => exact hhold.accounted

end

variable [DecidableEq Thread] (hhold : Holds phases world)

include hhold

section

variable (hphase : phases tid = .process pid claim attempt)

include hphase

theorem Holds.advance (hlive : world'.live = world.live)
    (hname : ∀ inode, world'.path = some inode → ∃ node, world'.inodes[inode]? = some node)
    (hheld : ∀ other, other ≠ pid → world'.held other = world.held other)
    (hown : world.live pid = true → Sound world' pid claim' attempt')
    (hoth : ∀ {other pid' claim attempt}, phases other = .process pid' claim attempt →
      pid' ≠ pid → world.live pid' = true → Sound world' pid' claim attempt)
    (hsingle : world.live pid = true → claim' ≠ .free → claim ≠ .free ∨
      ∀ {other pid' claim attempt}, phases other = .process pid' claim attempt → pid' ≠ pid →
        world.live pid' = true → claim = .free) :
    Holds (update phases tid (.process pid claim' attempt')) world' := by
  -- A party other than the acting one is another process.
  have hother : ∀ {other pid' claim₀ attempt₀}, other ≠ tid →
      update phases tid (.process pid claim' attempt') other = .process pid' claim₀ attempt₀ →
      phases other = .process pid' claim₀ attempt₀ ∧ pid' ≠ pid := by
    intro other pid' claim₀ attempt₀ hne heq
    rw [update_of_ne hne] at heq
    refine ⟨heq, ?_⟩
    rintro rfl
    exact hne (hhold.distinct heq hphase)
  have hself : ∀ {pid' claim₀ attempt₀},
      update phases tid (.process pid claim' attempt') tid =
        .process pid' claim₀ attempt₀ → pid = pid' ∧ claim' = claim₀ ∧ attempt' = attempt₀ := by
    intro pid' claim₀ attempt₀ heq
    rw [update_self] at heq
    exact process.inj heq
  -- No other process has a claim when the acting one has.
  have halone : ∀ {other pid' claim₀ attempt₀}, phases other = .process pid' claim₀ attempt₀ →
      pid' ≠ pid → world.live pid = true → world.live pid' = true → claim' ≠ .free →
        claim₀ = .free := by
    intro other pid' claim₀ attempt₀ hphase' hpid hown hlive' hclaim
    rcases hsingle hown hclaim with hpre | hfree
    · exact hhold.others_free hphase hown hpre hphase' hpid hlive'
    · exact hfree hphase' hpid hlive'
  constructor
  case named => exact hname
  case distinct =>
    intro first second pid' claim₁ attempt₁ claim₂ attempt₂ hfst hsnd
    by_cases hf : first = tid <;> by_cases hs : second = tid
    · exact hf.trans hs.symm
    · rw [hf] at hfst
      exact absurd (hself hfst).1.symm (hother hs hsnd).2
    · rw [hs] at hsnd
      exact absurd (hself hsnd).1.symm (hother hf hfst).2
    · exact hhold.distinct (hother hf hfst).1 (hother hs hsnd).1
  case sound =>
    intro other pid' claim₀ attempt₀ hupd hlive'
    rw [hlive] at hlive'
    by_cases htid : other = tid
    · rw [htid] at hupd
      obtain ⟨rfl, rfl, rfl⟩ := hself hupd
      exact hown hlive'
    · exact hoth (hother htid hupd).1 (hother htid hupd).2 hlive'
  case single =>
    intro first second pid₁ pid₂ claim₁ claim₂ attempt₁ attempt₂ hfst hsnd hlive₁ hlive₂
      hclaim₁ hclaim₂
    rw [hlive] at hlive₁ hlive₂
    by_cases hf : first = tid <;> by_cases hs : second = tid
    · exact hf.trans hs.symm
    · rw [hf] at hfst
      obtain ⟨rfl, rfl, rfl⟩ := hself hfst
      exact absurd (halone (hother hs hsnd).1 (hother hs hsnd).2 hlive₁ hlive₂ hclaim₁) hclaim₂
    · rw [hs] at hsnd
      obtain ⟨rfl, rfl, rfl⟩ := hself hsnd
      exact absurd (halone (hother hf hfst).1 (hother hf hfst).2 hlive₂ hlive₁ hclaim₂) hclaim₁
    · exact hhold.single (hother hf hfst).1 (hother hs hsnd).1 hlive₁ hlive₂ hclaim₁ hclaim₂
  case accounted =>
    intro other hnow
    by_cases hpid : other = pid
    · exact ⟨tid, claim', attempt', by rw [update_self, hpid]⟩
    · obtain ⟨thread', claim₀, attempt₀, hphase'⟩ :=
        hhold.accounted other ((hheld other hpid).symm.trans hnow)
      refine ⟨thread', claim₀, attempt₀, ?_⟩
      rw [update_of_ne, hphase']
      rintro rfl
      exact hpid (process.inj (hphase'.symm.trans hphase)).1

theorem Holds.advance_texts (hkeep : KeepsTexts world world' fun fd ↦ world.ownerOf fd ≠ some pid)
    (hlive : world'.live = world.live)
    (hheld : ∀ other, other ≠ pid → world'.held other = world.held other)
    (hown : Sound world' pid claim attempt') :
    Holds (update phases tid (.process pid claim attempt')) world' :=
  hhold.advance hphase hlive (hhold.named_of_keeps hkeep) hheld (fun _ ↦ hown)
    (hhold.others hkeep hheld) (fun _ ↦ Or.inl)

theorem Holds.advance_alone (hkeep : Keeps world world' fun fd ↦ world.ownerOf fd ≠ some pid)
    (hlive : world'.live = world.live) (hheld : world'.held = world.held)
    (hname : ∀ inode, world'.path = some inode → ∃ node, world'.inodes[inode]? = some node)
    (halone : ∀ {other pid' claim attempt}, phases other = .process pid' claim attempt →
      pid' ≠ pid → world.live pid' = true → claim = .free)
    (hown : Sound world' pid claim' attempt') :
    Holds (update phases tid (.process pid claim' attempt')) world' := by
  refine hhold.advance hphase hlive hname (fun _ _ ↦ congrFun hheld _) (fun _ ↦ hown) ?_
    (fun _ _ ↦ .inr halone)
  intro other pid' claim₀ attempt₀ hphase' hpid hlive'
  have hsound := hhold.sound hphase' hlive'
  apply hsound.keep_free (halone hphase' hpid hlive') hkeep (congrFun hheld pid')
  rintro fd rfl howner
  exact hpid (some.inj ((hsound.attempt_owner rfl).symm.trans howner))

end

theorem Holds.stay {phase : Phase} (hphase : phases tid = phase) :
    Holds (update phases tid phase) world := by
  rw [← hphase, update_eq_self]
  exact hhold

theorem Holds.advance_dead (hphase : phases tid = .process pid claim attempt)
    (hdead : world.live pid = false) :
    Holds (update phases tid (.process pid claim' attempt')) world :=
  hhold.advance hphase rfl hhold.named (fun _ _ ↦ rfl)
    (fun hlive ↦ absurd hlive (Bool.eq_false_iff.mp hdead))
    (fun hphase' _ hlive ↦ hhold.sound hphase' hlive)
    (fun hlive ↦ absurd hlive (Bool.eq_false_iff.mp hdead))

end

/-! ## The calls -/

section

variable [DecidableEq Thread] {phases : Thread → Phase} {world : World} {tid : Thread} {pid : ℤ}
  {claim : Claim} {attempt : Attempt} {fd : ℕ} {created : Bool} {attempt' : Attempt}

theorem Sound.claim_fd_lt (hsound : Sound world pid claim attempt)
    (hfd : claim.fd? = some fd) : fd < world.files.length := by
  obtain ⟨inode, node, hfile, -⟩ := hsound.standing fd hfd
  exact (List.getElem?_eq_some_iff.mp hfile).1

theorem getElem?_append_length {Item : Type} (items : List Item) (item : Item) :
    (items ++ [item])[items.length]? = some item := by
  simp

theorem Sound.restage (hsound : Sound world pid claim attempt)
    (hfd : attempt.fd? = some fd) (hfd' : attempt'.fd? = some fd)
    (hsupported : attempt'.Supported world pid) : Sound world pid claim attempt' where
  standing := hsound.standing
  supported := hsupported
  apart := fun other hother ↦ hfd'.trans hfd.symm ▸ hsound.apart other hother
  undivided := fun hmaking ↦ by
    rw [hsound.undivided hmaking] at hfd
    cases hfd
  held := hsound.held

theorem Claim.Standing.leave (hstand : (Claim.made fd created).Standing world pid) :
    (Claim.leaving fd created).Standing world pid := by
  cases created with
  | true | false => exact hstand

variable (hhold : Holds phases world)

include hhold

theorem Holds.rewrite (hphase : phases tid = .process pid claim attempt) {inode : ℕ} {node : Inode}
    {recorded : Option ℤ} (hclaim : claim'.fd? = some fd)
    (hfile : world.files[fd]? = some ⟨pid, inode⟩) (hpath : world.path = some inode)
    (hnode : world.inodes[inode]? = some node)
    (hback : claim'.Backed pid { node with recorded := recorded })
    (halone : ∀ {other pid' claim attempt}, phases other = .process pid' claim attempt →
      pid' ≠ pid → world.live pid' = true → claim = .free)
    (hheld : world.held pid = true → ∃ fd created, claim' = .made fd created) :
    Holds (update phases tid (.process pid claim' .none))
      (world.modifyFile fd fun node ↦ { node with recorded := recorded }) := by
  refine hhold.advance_alone hphase
    (keeps_modifyFile (fun _ ↦ rfl) fun _ _ _ _ _ _ hlock ↦ hlock) live_modifyFile
    held_modifyFile hhold.named_modifyFile halone (Sound.idle ?_ ?_)
  · intro fd' hfd'
    obtain rfl := some.inj (hclaim.symm.trans hfd')
    exact ⟨inode, _, by rw [files_modifyFile, hfile], path_modifyFile.trans hpath,
      getElem?_modifyFile_self (inodeOf_of_file hfile) hnode, hback⟩
  · rwa [held_modifyFile]

variable (hlive : world.live pid = true)

include hlive

theorem holds_openExisting
    (hphase : phases tid = .process pid claim .none) (hmaking : ¬claim.IsMaking) :
    Holds (update phases tid ((Phase.process pid claim .none).next
      (.openExisting pid) (world.openExisting pid).1)) (world.openExisting pid).2 := by
  cases hpath : world.path with
  | none =>
    simp only [openExisting, hpath]
    exact hhold.stay hphase
  | some inode =>
    rw [openExisting_of_some hpath]
    have hsound := hhold.sound hphase hlive
    obtain ⟨node, hnode⟩ := hhold.named inode hpath
    have hkeep : KeepsTexts world _ fun _ ↦ True := keepsTexts_open ⟨pid, inode⟩
    refine hhold.advance_texts hphase (keepsTexts_open _) rfl (fun _ _ ↦ rfl) ?_
    constructor
    case standing => exact hsound.standing.keep hkeep fun _ _ ↦ trivial
    case supported =>
      rintro fd ⟨⟩
      exact ⟨inode, node, getElem?_append_length _ _, hnode, by simp⟩
    case apart =>
      rintro fd hfd ⟨⟩
      exact absurd (hsound.claim_fd_lt hfd) (Nat.lt_irrefl _)
    case undivided => exact fun h ↦ absurd h hmaking
    case held => exact hsound.held

theorem holds_createExclusive (hphase : phases tid = .process pid claim .none) :
    Holds (update phases tid ((Phase.process pid claim .none).next
      (.createExclusive pid) (world.createExclusive pid).1)) (world.createExclusive pid).2 := by
  cases hpath : world.path with
  | some inode =>
    simp only [createExclusive, hpath]
    exact hhold.stay hphase
  | none =>
    simp only [createExclusive, hpath]
    -- Without a file there is no claim, the process's own included.
    have hfree : ∀ {other pid' claim attempt}, phases other = .process pid' claim attempt →
        world.live pid' = true → claim = .free := by
      intro other pid' claim₀ attempt₀ hphase' hlive'
      have hstand := (hhold.sound hphase' hlive').standing
      match claim₀ with
      | .free => rfl
      | .making fd _ | .made fd _ | .leaving fd _ =>
        obtain ⟨inode, node, -, hname, -⟩ := hstand fd rfl
        rw [hpath] at hname
        cases hname
    refine hhold.advance_alone hphase (keeps_create _ _ _) rfl rfl ?_
      (fun hphase' _ hlive' ↦ hfree hphase' hlive') ?_
    · rintro inode ⟨⟩
      exact ⟨_, getElem?_append_length _ _⟩
    · apply Sound.idle
      · rintro fd ⟨⟩
        exact ⟨_, _, getElem?_append_length _ _, rfl, getElem?_append_length _ _, rfl, rfl⟩
      · intro hheld
        obtain ⟨fd, created, hmade⟩ := (hhold.sound hphase hlive).held hheld
        rw [hfree hphase hlive] at hmade
        cases hmade

theorem holds_tryFlock (hphase : phases tid = .process pid claim (.opened fd)) :
    Holds (update phases tid ((Phase.process pid claim (.opened fd)).next
      (.tryFlock pid fd) (world.tryFlock fd).1)) (world.tryFlock fd).2 := by
  have hsound := hhold.sound hphase hlive
  obtain ⟨inode, node, hfile, hnode, -⟩ := hsound.supported fd rfl
  have hnodeOf := nodeOf_of_file hfile hnode
  cases hflock : node.flock with
  | some holder =>
    simp only [tryFlock, hnodeOf, bind_some, hflock]
    refine hhold.advance hphase rfl hhold.named (fun _ _ ↦ rfl) (fun _ ↦ ?_)
      (fun hphase' _ hlive' ↦ hhold.sound hphase' hlive') (fun _ ↦ Or.inl)
    by_cases hholder : holder = fd
    · rw [if_pos (decide_eq_true hholder)]
      apply hsound.restage rfl rfl
      rintro _ ⟨⟩
      exact ⟨inode, node, hfile, hnode, fun _ ↦ hholder ▸ hflock⟩
    · rw [if_neg (mt of_decide_eq_true hholder)]
      apply hsound.restage rfl rfl
      rintro _ ⟨⟩
      exact ⟨inode, node, hfile, hnode, nofun⟩
  | none =>
    have hfree : (world.nodeOf fd).bind Inode.flock = none := by rw [hnodeOf, bind_some, hflock]
    have hkeep : KeepsTexts world _ fun _ ↦ True := keepsTexts_flock hfree
    simp only [tryFlock, hfree]
    refine hhold.advance_texts hphase (keepsTexts_flock hfree) live_modifyFile
      (fun _ _ ↦ congrFun held_modifyFile _) ?_
    have hopened := hsound.keep hkeep (congrFun held_modifyFile pid) (fun _ _ ↦ trivial)
      (fun _ _ ↦ trivial)
    apply hopened.restage rfl rfl
    rintro _ ⟨⟩
    exact ⟨inode, _, by rw [files_modifyFile, hfile],
      getElem?_modifyFile_self (inodeOf_of_file hfile) hnode, fun _ ↦ rfl⟩

theorem holds_pidAlive (hphase : phases tid = .process pid claim (.locked fd)) (alive : Bool) :
    Holds (update phases tid
      (.process pid claim (if alive then .closing fd else .locked fd))) world := by
  cases alive with
  | false => exact hhold.stay hphase
  | true =>
    have hsound := hhold.sound hphase hlive
    refine hhold.advance hphase rfl hhold.named (fun _ _ ↦ rfl) (fun _ ↦ ?_)
      (fun hphase' _ hlive' ↦ hhold.sound hphase' hlive') (fun _ ↦ Or.inl)
    obtain ⟨inode, node, hfile, hnode, -⟩ := hsound.supported fd rfl
    apply hsound.restage rfl rfl
    rintro _ ⟨⟩
    exact ⟨inode, node, hfile, hnode, nofun⟩

theorem holds_writePid (hphase : phases tid = .process pid (.making fd created) .none) :
    Holds (update phases tid (.process pid (.made fd created) .none))
      (world.modifyFile fd fun node ↦ { node with recorded := some pid }) := by
  obtain ⟨inode, node, hfile, hpath, hnode, hback⟩ := (hhold.sound hphase hlive).standing fd rfl
  refine hhold.rewrite hphase rfl hfile hpath hnode ?_ (hhold.others_free hphase hlive nofun)
    fun _ ↦ ⟨fd, created, rfl⟩
  cases created with
  | true => exact ⟨hback.1, rfl⟩
  | false => exact hback

theorem holds_setHeld (hphase : phases tid = .process pid (.made fd created) .none) (held : Bool) :
    Holds (update phases tid ((Phase.process pid (.made fd created) .none).next
        (.setHeld pid held) ()))
      { world with held := fun other ↦ if other = pid then held else world.held other } := by
  have hsound := hhold.sound hphase hlive
  have hkeep : KeepsTexts world
      { world with held := fun other ↦ if other = pid then held else world.held other }
      fun _ ↦ True := keepsTexts_setHeld _
  have hheld : ∀ other, other ≠ pid →
      (if other = pid then held else world.held other) = world.held other :=
    fun other hother ↦ if_neg hother
  have hstand := hsound.standing.keep hkeep fun _ _ ↦ trivial
  cases held with
  | true =>
    refine hhold.advance_texts hphase (keepsTexts_setHeld _) rfl hheld ?_
    exact .idle hstand fun _ ↦ ⟨fd, created, rfl⟩
  | false =>
    refine hhold.advance hphase rfl (hhold.named_of_keeps hkeep) hheld (fun _ ↦ ?_)
      (hhold.others (keepsTexts_setHeld _) hheld) (fun _ _ ↦ .inl nofun)
    exact .idle hstand.leave fun hnow ↦
      absurd ((if_pos rfl).symm.trans hnow) Bool.false_ne_true

theorem holds_unlink (hphase : phases tid = .process pid (.leaving fd created) .none) :
    Holds (update phases tid (.process pid .free (.closing fd)))
      { world with path := none } := by
  have hsound := hhold.sound hphase hlive
  obtain ⟨inode, node, hfile, -, hnode, -⟩ := hsound.standing fd rfl
  refine hhold.advance_alone hphase keeps_unlink rfl rfl nofun
    (hhold.others_free hphase hlive nofun) ?_
  constructor
  case standing => exact Claim.standing_free
  case supported =>
    rintro _ ⟨⟩
    exact ⟨inode, node, hfile, hnode, nofun⟩
  case apart => exact nofun
  case undivided => exact False.elim
  case held =>
    intro hheld
    obtain ⟨_, _, hmade⟩ := hsound.held hheld
    cases hmade

theorem holds_dropFlock (hphase : phases tid = .process pid claim (.closing fd)) (hatt : attempt' = .closing fd ∨ attempt' = .none) :
    Holds (update phases tid (.process pid claim attempt')) (world.dropFlock fd) := by
  have hsound := hhold.sound hphase hlive
  have howner := hsound.attempt_owner rfl
  have hkeep : KeepsTexts world (world.dropFlock fd) fun other ↦ other ≠ fd :=
    keepsTexts_dropFlock fd (fun hne ↦ hne rfl)
  have hclose : Sound (world.dropFlock fd) pid claim (.closing fd) := by
    refine hsound.keep hkeep (congrFun held_modifyFile pid) ?_ nofun
    rintro other hother rfl
    exact hsound.apart other hother rfl
  refine hhold.advance_texts hphase (keepsTexts_dropFlock fd (fun hne ↦ hne howner))
    live_modifyFile (fun _ _ ↦ congrFun held_modifyFile _) ?_
  rcases hatt with rfl | rfl
  · exact hclose
  · exact .idle hclose.standing hclose.held

theorem holds_truncate_locked (hphase : phases tid = .process pid claim (.locked fd)) (hstale : WritesStale (.truncate pid fd) world) :
    Holds (update phases tid (.process pid (.making fd false) .none))
      (world.modifyFile fd fun node ↦ { node with recorded := none }) := by
  have hsound := hhold.sound hphase hlive
  obtain ⟨inode, node, hfile, hnode, hlock⟩ := hsound.supported fd rfl
  have hpath := (hstale hlive).1.trans (inodeOf_of_file hfile)
  refine hhold.rewrite hphase rfl hfile hpath hnode (hlock rfl)
    (fun hphase' _ hlive' ↦ free_of_stale hhold hphase hlive hstale hphase' hlive')
    fun hheld ↦ ?_
  obtain ⟨_, _, hmade⟩ := hsound.held hheld
  rw [free_of_stale hhold hphase hlive hstale hphase hlive] at hmade
  cases hmade

theorem holds_truncate_created (hphase : phases tid = .process pid (.making fd true) .none) :
    Holds (update phases tid (.process pid (.making fd true) .none))
      (world.modifyFile fd fun node ↦ { node with recorded := none }) := by
  have hsound := hhold.sound hphase hlive
  obtain ⟨inode, node, hfile, hpath, hnode, hcreat, -⟩ := hsound.standing fd rfl
  exact hhold.rewrite hphase rfl hfile hpath hnode ⟨hcreat, rfl⟩
    (hhold.others_free hphase hlive nofun) hsound.held

end

variable {pid : ℤ}

theorem Phase.caller_of_allowed
    (hallow : (process pid claim attempt).Allowed call) : call.caller = some pid := by
  cases call with
  | readPidFromFd caller fd | readPid caller => exact congrArg some hallow
  | crash caller => exact hallow.elim
  | _ => exact congrArg some hallow.1

theorem Phase.next_process {ans : call.Res} :
    ∃ claim' attempt', (process pid claim attempt).next call ans =
      .process pid claim' attempt' := by
  cases call with
  | createExclusive _ | openExisting _ => cases ans <;> exact ⟨_, _, rfl⟩
  | pidAlive _ _ | truncate _ _ => cases attempt <;> exact ⟨_, _, rfl⟩
  | writePid _ _ | unlink _ => cases claim <;> exact ⟨_, _, rfl⟩
  | setHeld _ held => cases held <;> cases claim <;> exact ⟨_, _, rfl⟩
  | _ => exact ⟨_, _, rfl⟩

section Step

variable [DecidableEq Thread] {phases : Thread → Phase} {world : World} {tid : Thread}
  {pid : ℤ} {claim : Claim} {attempt : Attempt} {call : Call}

theorem holds_perform (hhold : Holds phases world)
    (hphase : phases tid = .process pid claim attempt) (hlive : world.live pid = true)
    (hallow : (Phase.process pid claim attempt).Allowed call) (hstale : WritesStale call world) :
    Holds (update phases tid
      ((Phase.process pid claim attempt).next call (perform call world).1))
      (perform call world).2 := by
  cases call with
  | createExclusive caller =>
    obtain ⟨rfl, rfl⟩ := hallow
    exact holds_createExclusive hhold hlive hphase
  | openExisting caller =>
    obtain ⟨rfl, rfl, hmaking⟩ := hallow
    exact holds_openExisting hhold hlive hphase hmaking
  | tryFlock caller fd =>
    obtain ⟨rfl, rfl⟩ := hallow
    exact holds_tryFlock hhold hlive hphase
  | readPidFromFd caller fd | readPid caller => exact hhold.stay hphase
  | pidAlive caller target =>
    obtain ⟨rfl, fd, rfl⟩ := hallow
    exact holds_pidAlive hhold hlive hphase _
  | truncate caller fd =>
    obtain ⟨rfl, rfl | ⟨rfl, rfl⟩⟩ := hallow
    · exact holds_truncate_locked hhold hlive hphase hstale
    · exact holds_truncate_created hhold hlive hphase
  | writePid caller fd =>
    obtain ⟨rfl, rfl, created, rfl⟩ := hallow
    exact holds_writePid hhold hlive hphase
  | setHeld caller held =>
    obtain ⟨rfl, rfl, fd, created, rfl⟩ := hallow
    exact holds_setHeld hhold hlive hphase held
  | unlink caller =>
    obtain ⟨rfl, rfl, fd, created, rfl⟩ := hallow
    exact holds_unlink hhold hlive hphase
  | unflock caller fd =>
    obtain ⟨rfl, rfl⟩ := hallow
    exact holds_dropFlock hhold hlive hphase (.inl rfl)
  | close caller fd =>
    obtain ⟨rfl, rfl⟩ := hallow
    exact holds_dropFlock hhold hlive hphase (.inr rfl)
  | crash caller => exact hallow.elim

theorem holds_exec (hhold : Holds phases world) (hallow : (phases tid).Allowed call)
    (hstale : WritesStale call world) :
    Holds (update phases tid ((phases tid).next call (exec call world).1)) (exec call world).2 := by
  cases hphase : phases tid with
  | crashes =>
    rw [hphase] at hallow
    cases call with
    | crash pid => exact (holds_crash hhold pid).stay hphase
    | _ => exact hallow.elim
  | process pid claim attempt =>
    rw [hphase] at hallow
    have hcaller := Phase.caller_of_allowed hallow
    unfold exec
    rw [hcaller, all_some]
    cases hlive : world.live pid with
    | true => exact holds_perform hhold hphase hlive hallow hstale
    | false =>
      obtain ⟨claim', attempt', hnext⟩ := Phase.next_process
      rw [hnext]
      exact hhold.advance_dead hphase hlive

end Step

section Interleavings

variable {parties : Thread → Party} {live : ℤ → Bool} {remnant : Option ℤ}

def World.writes (world : World) (pid : ℤ) : Bool := world.live pid && world.held pid

theorem Party.phase_eq_process {party : Party} (hphase : party.phase = .process pid claim attempt) :
    (∃ commands, party = .process pid commands) ∧ claim = .free ∧ attempt = .none := by
  cases party with
  | process pid commands =>
    obtain ⟨rfl, rfl, rfl⟩ := Phase.process.inj hphase
    exact ⟨⟨commands, rfl⟩, rfl, rfl⟩
  | crashes pids => cases hphase

theorem holds_initial
    (hdist : ∀ {first second pid commands commands'},
      parties first = .process pid commands → parties second = .process pid commands' →
        first = second) : Holds (fun tid ↦ (parties tid).phase) (initial live remnant) := by
  constructor
  case named =>
    intro inode hpath
    cases remnant with
    | none => cases hpath
    | some pid =>
      cases hpath
      exact ⟨_, rfl⟩
  case distinct =>
    intro first second pid claim attempt claim' attempt' hfst hsnd
    obtain ⟨⟨commands, hfst⟩, -⟩ := Party.phase_eq_process hfst
    obtain ⟨⟨commands', hsnd⟩, -⟩ := Party.phase_eq_process hsnd
    exact hdist hfst hsnd
  case sound =>
    intro tid pid claim attempt hphase hlive
    obtain ⟨-, rfl, rfl⟩ := Party.phase_eq_process hphase
    exact .idle Claim.standing_free nofun
  case single =>
    intro first second pid pid' claim claim' attempt attempt' hfst _ _ _ hclaim
    exact absurd (Party.phase_eq_process hfst).2.1 hclaim
  case accounted => exact nofun

variable [DecidableEq Thread]

/-- If every process writes its pid only over a stale lock file, no two live processes hold the
writer lock. -/
theorem at_most_one_live_writer {reached : Pool Thread Call Call.Res LockError Unit World}
    (hdist : ∀ {first second pid commands commands'},
      parties first = .process pid commands → parties second = .process pid commands' →
        first = second)
    (hreach : Pool.Reaches exec WritesStale (pool (World.initial live remnant) parties) reached)
    {first second : ℤ} (hfirst : reached.shared.writes first = true)
    (hsecond : reached.shared.writes second = true) : first = second := by
  have hinvariant : ∃ phases, Holds phases reached.shared ∧ _ :=
    Pool.reaches_invariant (fun tid ↦ (parties tid).follows) (holds_initial hdist)
      (fun phases world tid call hhold ↦ holds_exec hhold) hreach
  obtain ⟨phases, hhold, -⟩ := hinvariant
  rw [writes, Bool.and_eq_true] at hfirst hsecond
  obtain ⟨tid, claim, attempt, hphase⟩ := hhold.accounted first hfirst.2
  obtain ⟨thread', claim', attempt', hphase'⟩ := hhold.accounted second hsecond.2
  obtain ⟨fd, created, hmade⟩ := (hhold.sound hphase hfirst.1).held hfirst.2
  obtain ⟨fd', created', hmade'⟩ := (hhold.sound hphase' hsecond.1).held hsecond.2
  obtain rfl := hhold.single hphase hphase' hfirst.1 hsecond.1 (hmade ▸ nofun) (hmade' ▸ nofun)
  exact (process.inj (hphase.symm.trans hphase')).1

end Interleavings

def twoWriters : Bool → Party
  | false => .process 1 [.acquire 2]
  | true => .process 2 [.acquire 2]

def everybodyLives : ℤ → Bool := fun _ ↦ true

theorem two_live_writers : ∃ reached,
    Pool.Reaches exec (fun _ _ ↦ True)
        (pool (World.initial everybodyLives none) twoWriters) reached ∧
      reached.shared.writes 1 = true ∧ reached.shared.writes 2 = true := by
  refine ⟨_, Pool.reaches_runSchedule
    [false, true, true, true, true, true, true, true, false, false, false] .start
    (by decide +kernel), ?_⟩
  decide +kernel

def threeWriters : Fin 4 → Party
  | 0 => .process 1 [.acquire 2, .release]
  | 1 => .process 2 [.acquire 2]
  | 2 => .process 3 [.acquire 2]
  | 3 => .crashes [1]

-- The second process opens the file before the first one removes its name and dies;
-- the third one creates a new file, and the second one takes over the old one.
example :
    let reached := (pool (initial everybodyLives none) threeWriters).runSchedule exec
      [0, 0, 0, 0, 1, 1, 0, 0, 3, 2, 2, 2, 2, 1, 1, 1, 1, 1, 1]
    reached.shared.writes 2 = true ∧ reached.shared.writes 3 = true := by
  decide +kernel

theorem threeWriters_distinct {first second : Fin 4} {commands commands' : List Command}
    (hfst : threeWriters first = .process pid commands)
    (hsnd : threeWriters second = .process pid commands') : first = second := by
  match first, second with
  | 0, 0 | 1, 1 | 2, 2 | 3, 3 => rfl
  | 0, 1 | 0, 2 | 0, 3 | 1, 0 | 1, 2 | 1, 3 | 2, 0 | 2, 1 | 2, 3 =>
    cases hfst
    cases hsnd
  | 3, _ => cases hfst

theorem heir_is_only_writer : ∃ reached,
    Pool.Reaches exec WritesStale (pool (World.initial everybodyLives none) threeWriters) reached ∧
      reached.shared.writes 2 = true ∧ ∀ other, reached.shared.writes other = true → other = 2 := by
  let start := pool (initial everybodyLives none) threeWriters
  have hstart : Pool.Reaches exec WritesStale start start := .start
  have hreach := Pool.reaches_runSchedule [0, 0, 0, 0, 3, 1, 1, 1, 1, 1, 1, 1, 1, 2, 2, 2] hstart
    (by decide +kernel)
  refine ⟨_, hreach, by decide +kernel, fun other hother ↦ ?_⟩
  exact at_most_one_live_writer threeWriters_distinct hreach hother (by decide +kernel)

end Tradex.Runtime.WriterLock
