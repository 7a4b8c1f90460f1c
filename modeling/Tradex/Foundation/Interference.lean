import Tradex.Foundation.Protocol

/-!
# Programs under interference

What others may do between the actions of a program is a relation on which the program relies.
-/

namespace Tradex.Program

variable {Op : Type} {Res : Op → Type} {Err Input Output State : Type}

def Withstands (exec : (op : Op) → State → Res op × State) (rely : State → State → Prop) :
    Program Op Res Err Output → (Output → State → Prop) → (Err → State → Prop) → State → Prop
  | .ret val, post, _, st => ∀ later, rely st later → post val later
  | .raise err, _, fail, st => ∀ later, rely st later → fail err later
  | .call op rest, post, fail, st => ∀ later, rely st later →
      Withstands exec rely (rest (exec op later).1) post fail (exec op later).2

variable {handler : Err → Program Op Res Err Output} {next : Input → Program Op Res Err Output}

section Rules

variable {exec : (op : Op) → State → Res op × State} {rely : State → State → Prop}
  {post : Output → State → Prop} {fail : Err → State → Prop} {st : State}
  {prog : Program Op Res Err Output}

theorem Withstands.later (htrans : ∀ first second third,
      rely first second → rely second third → rely first third)
    (hprog : Withstands exec rely prog post fail st)
    {later : State} (hlate : rely st later) : Withstands exec rely prog post fail later := by
  cases prog with
  | _ => exact fun last hlast ↦ hprog last (htrans _ _ _ hlate hlast)

theorem Withstands.mono {post' : Output → State → Prop} {fail' : Err → State → Prop}
    (hprog : Withstands exec rely prog post fail st)
    (hpost : ∀ val fin, post val fin → post' val fin)
    (hfail : ∀ err fin, fail err fin → fail' err fin) :
    Withstands exec rely prog post' fail' st := by
  induction prog generalizing st with
  | ret val => exact fun later hlate ↦ hpost _ _ (hprog later hlate)
  | raise err => exact fun later hlate ↦ hfail _ _ (hprog later hlate)
  | call op rest ih => exact fun later hlate ↦ ih _ (hprog later hlate)

theorem withstands_bind (hrefl : ∀ st, rely st st) {prog : Program Op Res Err Input}
    (hprog : Withstands exec rely prog
      (fun val fin ↦ Withstands exec rely (next val) post fail fin) fail st) :
    Withstands exec rely (prog >>= next) post fail st := by
  induction prog generalizing st with
  | ret val => exact hprog st (hrefl st)
  | raise err => exact hprog
  | call op rest ih => exact fun later hlate ↦ ih _ (hprog later hlate)

theorem withstands_tryCatch (hrefl : ∀ st, rely st st)
    (hprog : Withstands exec rely prog post
      (fun err fin ↦ Withstands exec rely (handler err) post fail fin) st) :
    Withstands exec rely (tryCatch handler prog) post fail st := by
  induction prog generalizing st with
  | ret val => exact hprog
  | raise err => exact hprog st (hrefl st)
  | call op rest ih => exact fun later hlate ↦ ih _ (hprog later hlate)

theorem withstands_of_performs {allowed : Op → Prop} {prop : State → Prop}
    (hstable : ∀ before after, rely before after → prop before → prop after)
    (hkept : ∀ op before, allowed op → prop before → prop (exec op before).2)
    {returned : Output → Prop} (hperf : prog.Performs allowed returned)
    (hstart : prop st) :
    Withstands exec rely prog (fun val fin ↦ returned val ∧ prop fin) (fun _ ↦ prop) st := by
  induction prog generalizing st with
  | ret val => exact fun later hlate ↦ ⟨hperf, hstable _ _ hlate hstart⟩
  | raise err => exact fun later hlate ↦ hstable _ _ hlate hstart
  | call op rest ih =>
    exact fun later hlate ↦
      ih _ (hperf.2 _) (hkept op later hperf.1 (hstable _ _ hlate hstart))

theorem Withstands.wp (hrefl : ∀ st, rely st st) (hprog : Withstands exec rely prog post fail st) :
    Program.wp exec prog post fail st := by
  induction prog generalizing st with
  | ret val | raise err => exact hprog st (hrefl st)
  | call op rest ih => exact ih _ (hprog st (hrefl st))

end Rules

def PerformsIf (possible : (op : Op) → Res op → Prop) (allowed : Op → Prop) :
    Program Op Res Err Output → Prop
  | .ret _ => True
  | .raise _ => True
  | .call op rest => allowed op ∧ ∀ ans, possible op ans →
      PerformsIf possible allowed (rest ans)

variable {possible : (op : Op) → Res op → Prop} {allowed : Op → Prop}

theorem performsIf_bind {prog : Program Op Res Err Input} (hprog : PerformsIf possible allowed prog)
    (hnext : ∀ val, PerformsIf possible allowed (next val)) :
    PerformsIf possible allowed (prog >>= next) := by
  induction prog with
  | ret val => exact hnext val
  | raise err => trivial
  | call op rest ih => exact ⟨hprog.1, fun ans hans ↦ ih ans (hprog.2 ans hans)⟩

variable {prog : Program Op Res Err Output}

theorem performsIf_tryCatch (hprog : PerformsIf possible allowed prog)
    (hhandler : ∀ err, PerformsIf possible allowed (handler err)) :
    PerformsIf possible allowed (tryCatch handler prog) := by
  induction prog with
  | ret val => trivial
  | raise err => exact hhandler err
  | call op rest ih => exact ⟨hprog.1, fun ans hans ↦ ih ans (hprog.2 ans hans)⟩

theorem withstands_of_wp {exec : (op : Op) → State → Res op × State}
    {rely simulates : State → State → Prop} {post : Output → State → Prop}
    {fail : Err → State → Prop}
    (hrely : ∀ alone shared later, simulates alone shared → rely shared later →
      simulates alone later)
    (hexec : ∀ op alone shared, allowed op → simulates alone shared →
      possible op (exec op alone).1 ∧ (exec op shared).1 = (exec op alone).1 ∧
        simulates (exec op alone).2 (exec op shared).2)
    (hpost : ∀ val alone shared, simulates alone shared → post val alone → post val shared)
    (hfail : ∀ err alone shared, simulates alone shared → fail err alone → fail err shared)
    (hperf : PerformsIf possible allowed prog)
    {alone shared : State} (hsim : simulates alone shared)
    (hwp : wp exec prog post fail alone) : Withstands exec rely prog post fail shared := by
  induction prog generalizing alone shared with
  | ret val => exact fun later hlate ↦ hpost _ _ _ (hrely _ _ _ hsim hlate) hwp
  | raise err => exact fun later hlate ↦ hfail _ _ _ (hrely _ _ _ hsim hlate) hwp
  | call op rest ih =>
    intro later hlate
    obtain ⟨hpossible, hans, hafter⟩ := hexec op alone later hperf.1 (hrely _ _ _ hsim hlate)
    rw [hans]
    exact ih _ (hperf.2 _ hpossible) hafter hwp

end Tradex.Program
