import EthAgent.LinkRest

/-!
The interface for which the link state machine is in some of its states. It changes with
an iteration of the machine, and with a start request for another interface.
-/

set_option autoImplicit false

namespace EthAgent
open CString Packed Runs

/-- The interface for which the machine is in one of the states `P`, if it is. -/
def LinkControl.owner (P : EthSmState → Prop) (c : LinkControl) : Set Text :=
  {x | c.thread = .looping ∧ P c.geCurrentState ∧ c.pstInfo.map Buf.text = some x}

/-- A start request does not take the machine from that interface. -/
def OwnerKept (P : EthSmState → Prop) (a : LinkAgent) (ev : LinkEvent) : Prop :=
  ∀ x ∈ a.control.owner P, ∀ name start, startRequest a ev = some (name,start) →
    start.allocated = true ∧ name.text = x

structure Beyond (P : EthSmState → Prop) : Prop where
  exit : ¬ P .exit
  validating : ¬ P .ethValidatingLink

/-- The thread exists once it was started, and a machine without an interface is in none
of the states. -/
structure LinkControl.Sound (P : EthSmState → Prop) (c : LinkControl) : Prop where
  started : c.stateMachineThreadStart = false → c.thread = .absent
  named : c.thread = .looping → c.pstInfo = none → ¬ P c.geCurrentState

theorem sound_init (P : EthSmState → Prop) : linkControlInit.Sound P :=
  ⟨fun _ => rfl,fun ht => absurd ht nofun⟩

section Owner

variable {P : EthSmState → Prop} {c : LinkControl} {name : Buf 64}

theorem owner_of_looping (ht : c.thread = .looping) (hp : c.pstInfo = some name) :
    c.owner P = {x | P c.geCurrentState ∧ name.text = x} := by
  simp [LinkControl.owner,ht,hp]

theorem owner_of_not_looping (ht : c.thread ≠ .looping) : c.owner P = ∅ :=
  Set.eq_empty_of_forall_notMem fun _ hx => ht hx.1

theorem owner_of_not (hs : ¬ P c.geCurrentState) : c.owner P = ∅ :=
  Set.eq_empty_of_forall_notMem fun _ hx => hs hx.2.1

end Owner

section Start

variable {P : EthSmState → Prop} {c : LinkControl} {name : Buf 64} {start : StartAnswers}

theorem mem_owner_start_iff (h : c.Sound P) (x : Text) :
    x ∈ (cosaEthManagerStartStateMachine c name start).owner P ↔
      c.thread = .looping ∧ P c.geCurrentState ∧ start.allocated = true ∧ name.text = x := by
  unfold cosaEthManagerStartStateMachine
  cases halloc : start.allocated with
  | false => simp [LinkControl.owner]
  | true =>
    cases hs : c.stateMachineThreadStart with
    | true => simp [LinkControl.owner]
    | false =>
      have habsent := h.started hs
      cases hcreated : start.created <;> simp [LinkControl.owner,habsent]

/-- A start request leaves the interface its states exactly if it is for that one. -/
theorem owner_start_eq_iff (h : c.Sound P) :
    (cosaEthManagerStartStateMachine c name start).owner P = c.owner P ↔
      ∀ x ∈ c.owner P, start.allocated = true ∧ name.text = x := by
  constructor
  · intro heq x hx
    rw [← heq,mem_owner_start_iff h] at hx
    exact hx.2.2
  · intro hkeeps
    ext x
    rw [mem_owner_start_iff h]
    constructor
    · rintro ⟨ht,hs,-,rfl⟩
      cases hp : c.pstInfo with
      | none => exact absurd hs (h.named ht hp)
      | some own =>
        have hown : own.text ∈ c.owner P := by
          rw [owner_of_looping ht hp]
          exact ⟨hs,rfl⟩
        rw [(hkeeps _ hown).2]
        exact hown
    · intro hx
      exact ⟨hx.1,hx.2.1,hkeeps x hx⟩

theorem LinkControl.Sound.startMachine (h : c.Sound P)
    (hkeeps : ∀ x ∈ c.owner P, start.allocated = true ∧ name.text = x) :
    (cosaEthManagerStartStateMachine c name start).Sound P := by
  have hnone : start.allocated = false → c.thread = .looping → ¬ P c.geCurrentState := by
    intro halloc ht hs
    cases hp : c.pstInfo with
    | none => exact h.named ht hp hs
    | some own =>
      have hown : own.text ∈ c.owner P := by
        rw [owner_of_looping ht hp]
        exact ⟨hs,rfl⟩
      exact absurd (halloc.symm.trans (hkeeps _ hown).1) Bool.false_ne_true
  unfold cosaEthManagerStartStateMachine
  cases halloc : start.allocated with
  | false => exact ⟨h.started,fun ht _ => hnone halloc ht⟩
  | true =>
    cases hs : c.stateMachineThreadStart with
    | true => exact ⟨fun hf => absurd hf (by simp),fun _ hp => absurd hp nofun⟩
    | false =>
      cases hcreated : start.created with
      | false => exact ⟨fun _ => h.started hs,fun _ hp => absurd hp nofun⟩
      | true => exact ⟨fun hf => absurd hf nofun,fun ht => absurd ht nofun⟩

end Start

section Machine

variable {P : EthSmState → Prop} {reads : Bool} {a : LinkAgent} {answers : MachineAnswers}

theorem machineStep_looping (reads : Bool) (answers : MachineAnswers)
    (ht : a.control.thread = .looping) :
    (machineStep reads a answers).1.control =
        { a.control with
          geCurrentState := (linkStep (.wanManager reads) (a.control.pstInfo.elim [] Buf.text)
            a.control.geCurrentState (a.input answers)).1 } ∧
      (machineStep reads a answers).2 =
        (linkStep (.wanManager reads) (a.control.pstInfo.elim [] Buf.text)
          a.control.geCurrentState (a.input answers)).2 := by
  unfold machineStep
  split
  · next h => exact absurd (ht.symm.trans h) nofun
  · next h => exact absurd (ht.symm.trans h) nofun
  · next h => exact absurd (ht.symm.trans h) nofun
  · exact ⟨rfl,rfl⟩

theorem machineStep_not_looping (hP : Beyond P) (reads : Bool) (answers : MachineAnswers)
    (ht : a.control.thread ≠ .looping) :
    (machineStep reads a answers).1.control.owner P = ∅ ∧
      (machineStep reads a answers).2 = [] := by
  unfold machineStep
  cases hthread : a.control.thread with
  | looping => exact absurd hthread ht
  | absent => exact ⟨owner_of_not_looping ht,rfl⟩
  | ended => exact ⟨owner_of_not_looping ht,rfl⟩
  | created =>
    cases hp : a.control.pstInfo with
    | none => exact ⟨owner_of_not_looping nofun,rfl⟩
    | some name => exact ⟨owner_of_not hP.exit,rfl⟩

/-- A machine that finds no record stays where it is or goes back to link validation. -/
theorem linkStep_nameless (hP : Beyond P) (b : LinkBuild) (ifname : Text) {i : LinkInput}
    {s : EthSmState} (hr : i.record = none) (hs : ¬ P s) : ¬ P (linkStep b ifname s i).1 := by
  rw [linkStep,hr]
  cases s with
  | exit => exact hs
  | ethDisconnected => exact hs
  | ethValidatingLink => exact hs
  | ethVlanConfiguring => exact hP.validating
  | ethWanLinkUp => exact hP.validating

theorem LinkControl.Sound.machineStep (hP : Beyond P) (h : a.control.Sound P) :
    (machineStep reads a answers).1.control.Sound P := by
  by_cases ht : a.control.thread = .looping
  · rw [(machineStep_looping reads answers ht).1]
    refine ⟨h.started,fun _ hp => ?_⟩
    have hrecord : (a.input answers).record = none := record_of_no_name a hp
    exact linkStep_nameless hP _ _ hrecord (h.named ht hp)
  · unfold EthAgent.machineStep
    split
    · exact h
    · exact h
    · next hcreated =>
      cases hp : a.control.pstInfo with
      | none => exact ⟨fun hs => absurd ((h.started hs).symm.trans hcreated) nofun,nofun⟩
      | some name =>
        exact ⟨fun hs => absurd ((h.started hs).symm.trans hcreated) nofun,fun _ _ => hP.exit⟩
    · next hlooping => exact absurd hlooping ht

/-- The machine stays sound unless a start request takes it from its interface. -/
theorem LinkControl.Sound.agentStep (hP : Beyond P) {p : Platform}
    {q : LinkAgent × List LinkCall} {ev : LinkEvent} (h : q.1.control.Sound P)
    (hkeeps : (∀ answers, ev ≠ .machine answers) → OwnerKept P q.1 ev) :
    (logged (agentStep p reads) q ev).1.control.Sound P := by
  by_cases hev : ∃ answers, ev = .machine answers
  · obtain ⟨answers,rfl⟩ := hev
    exact h.machineStep hP
  · rw [not_exists] at hev
    rw [logged,(agentStep_control p reads q.1 hev).2]
    cases hreq : startRequest q.1 ev with
    | none => exact h
    | some r => exact h.startMachine fun x hx => hkeeps hev x hx r.1 r.2 hreq

/-- Outside the thread no call is made, and the interface keeps its states exactly as long
as no start request takes the machine from it. -/
theorem owner_agentStep_eq_iff (p : Platform) (reads : Bool) {q : LinkAgent × List LinkCall}
    {ev : LinkEvent} (h : q.1.control.Sound P) (hev : ∀ answers, ev ≠ .machine answers) :
    (logged (agentStep p reads) q ev).2 = q.2 ∧
      ((logged (agentStep p reads) q ev).1.control.owner P = q.1.control.owner P ↔
        OwnerKept P q.1 ev) := by
  obtain ⟨hcalls,hcontrol⟩ := agentStep_control p reads q.1 hev
  rw [logged,hcalls,hcontrol,OwnerKept]
  refine ⟨List.append_nil _,?_⟩
  cases hreq : startRequest q.1 ev with
  | none => simp
  | some r =>
    obtain ⟨name,start⟩ := r
    refine (owner_start_eq_iff h).trans (forall₂_congr fun x _ => ⟨?_,fun hall => ?_⟩)
    · intro hx _ _ heq
      cases heq
      exact hx
    · exact hall name start rfl

end Machine

end EthAgent
