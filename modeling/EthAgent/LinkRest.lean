import EthAgent.WriteThrough
import EthAgent.Lib.Settling

/-!
The link state machine left to itself. While no request and no link event comes, its
own calls are the only changes of the port table; it comes to rest after four
iterations, in a state that fits the record of its port.
-/

set_option autoImplicit false

namespace EthAgent
open CString Packed Runs Settling

/-- The states in which the machine stays, for each record. -/
def EthSmState.Fits : Option PortRecord → EthSmState → Prop
  | none, s => s.idle ∨ s = .ethValidatingLink
  | some g, .exit => g.upstream = false
  | some g, .ethDisconnected => g.upstream = true ∧ g.linkStatus = .down
  | some g, .ethValidatingLink =>
    g.upstream = true ∧ g.linkStatus = .up ∧ g.wanValidated = false
  | some g, .ethVlanConfiguring => g.upstream = true ∧ g.linkStatus = .up ∧ g.wanStatus = .down
  | some g, .ethWanLinkUp => g.upstream = true ∧ g.linkStatus = .up ∧ g.wanStatus = .up

def roundsLeft : Option PortRecord → EthSmState → Nat
  | none, s => if s = .ethVlanConfiguring ∨ s = .ethWanLinkUp then 1 else 0
  | some g, .exit => if g.upstream then 3 else 0
  | some g, .ethDisconnected =>
    if g.upstream = false then 1 else if g.linkStatus = .down then 0 else 2
  | some g, .ethValidatingLink =>
    if g.upstream = false ∨ g.linkStatus = .down then 4
    else if g.wanValidated then (if g.wanStatus = .up then 2 else 1) else 0
  | some g, .ethVlanConfiguring =>
    if g.upstream = false ∨ g.linkStatus = .down then 4 else if g.wanStatus = .up then 1 else 0
  | some g, .ethWanLinkUp =>
    if g.upstream = false ∨ g.wanStatus = .down ∨ g.linkStatus = .down then 4 else 0

theorem roundsLeft_le (record : Option PortRecord) (s : EthSmState) : roundsLeft record s ≤ 4 := by
  cases record <;> cases s <;> simp only [roundsLeft] <;> split_ifs <;> omega

theorem roundsLeft_eq_zero_iff (record : Option PortRecord) (s : EthSmState) :
    roundsLeft record s = 0 ↔ s.Fits record := by
  cases record with
  | none => cases s <;> simp [roundsLeft,EthSmState.Fits,EthSmState.idle]
  | some g =>
    cases hu : g.upstream <;> cases hl : g.linkStatus <;> cases hw : g.wanStatus <;>
      cases hv : g.wanValidated <;> cases s <;> simp [roundsLeft,EthSmState.Fits,hu,hl,hw,hv]

theorem linkMove_of_fits {record : Option PortRecord} {s : EthSmState} (h : s.Fits record) :
    linkMove record s = .goto s := by
  cases record with
  | none =>
    rcases h with (rfl | rfl) | rfl <;> rfl
  | some g =>
    cases s with
    | exit => simp [linkMove,stateExit,show g.upstream = false from h]
    | ethDisconnected =>
      obtain ⟨hu,hl⟩ := h
      simp [linkMove,stateEthDisconnected,hu,hl]
    | ethValidatingLink =>
      obtain ⟨hu,hl,hv⟩ := h
      simp [linkMove,stateEthValidatingLink,hu,hl,hv]
    | ethVlanConfiguring =>
      obtain ⟨hu,hl,hw⟩ := h
      simp [linkMove,stateEthVLANConfiguring,hu,hl,hw]
    | ethWanLinkUp =>
      obtain ⟨hu,hl,hw⟩ := h
      simp [linkMove,stateEthWanLinkUp,hu,hl,hw]

def recordAfter (record : Option PortRecord) (calls : List LinkCall) : Option PortRecord :=
  calls.foldl (fun record c =>
    match c with
    | .setPortWanStatus _ wanStatus => record.map (SetValue.wanStatus wanStatus).write
    | _ => record) record

theorem getCopy_applyCalls {ifname : Text} {calls : List LinkCall}
    (hown : ∀ c ∈ calls, c.ifname = ifname) (t : PortTable) :
    cosaDmlEthPortGetCopyOfGlobalInfoForGivenIfName (calls.foldl applyCall t) (some ifname) =
      recordAfter (cosaDmlEthPortGetCopyOfGlobalInfoForGivenIfName t (some ifname)) calls := by
  induction calls generalizing t with
  | nil => rfl
  | cons c calls ih =>
    have hfirst := hown c List.mem_cons_self
    rw [List.foldl_cons,ih fun c hc => hown c (List.mem_cons_of_mem _ hc)]
    simp only [recordAfter,List.foldl_cons]
    congr 1
    cases c with
    | setPortWanStatus ifname' wanStatus =>
      obtain rfl := hfirst
      exact getCopy_setWanStatus t _ wanStatus
    | _ => rfl

theorem recordAfter_append (record : Option PortRecord) (calls calls' : List LinkCall) :
    recordAfter record (calls ++ calls') = recordAfter (recordAfter record calls) calls' :=
  List.foldl_append

theorem recordAfter_setWanLinkStatus (record : Option PortRecord) (i : LinkInput) (ifname : Text)
    (status : WanStatus) : recordAfter record (setWanLinkStatus i ifname status) = record := by
  unfold setWanLinkStatus
  split <;> rfl

theorem recordAfter_linkUp (record : Option PortRecord) (reads : Bool) (i : LinkInput)
    (ifname : Text) :
    recordAfter record (transitionEthWanLinkUp (.wanManager reads) ifname i).2 = record := by
  simp only [transitionEthWanLinkUp]
  rw [recordAfter_append,recordAfter_setWanLinkStatus]
  unfold setWanInterfaceName
  split <;> rfl

/-- A found link ends in a state that fits the record, or leads there with one more
iteration. -/
theorem roundsLeft_linkFound {reads : Bool} {ifname : Text} {i : LinkInput} {g : PortRecord}
    (hrecord : i.record = some g) (hagain : i.recordAgain = some g)
    (hm : linkMove i.record .ethValidatingLink = .ethWanLinkFound) :
    roundsLeft (recordAfter i.record (transitionEthWanLinkFound (.wanManager reads) ifname i).2)
        (transitionEthWanLinkFound (.wanManager reads) ifname i).1 <
      roundsLeft i.record .ethValidatingLink := by
  obtain ⟨-,g',hg',hu,hl,hv⟩ := linkMove_wanLinkFound_iff.mp hm
  obtain rfl := Option.some_inj.mp (hrecord.symm.trans hg')
  simp only [transitionEthWanLinkFound,hagain,hrecord]
  split
  · -- the WAN status becomes up, and the machine goes on to `STATE_WAN_LINK_UP` at once
    have hafter : recordAfter (some g) (.setPortWanStatus ifname .up ::
        (transitionEthWanLinkUp (.wanManager reads) ifname i).2) =
        some ((SetValue.wanStatus .up).write g) :=
      recordAfter_linkUp _ reads i ifname
    rw [hafter]
    cases hw : g.wanStatus <;>
      simp [transitionEthWanLinkUp,roundsLeft,SetValue.write,hu,hl,hv,hw]
  · have hafter : recordAfter (some g) [.createEthLink ifname g.lowerLayers.text] = some g := rfl
    rw [hafter]
    cases hw : g.wanStatus <;> simp [roundsLeft,hu,hl,hv,hw]

theorem roundsLeft_exit_lt (record : Option PortRecord) : roundsLeft record .exit < 4 := by
  cases record with
  | none => simp [roundsLeft]
  | some g => cases hu : g.upstream <;> simp [roundsLeft,hu]

theorem roundsLeft_phyDown {reads : Bool} {ifname : Text} {i : LinkInput} {g : PortRecord}
    (record : Option PortRecord) (hagain : i.recordAgain = some g) :
    roundsLeft (recordAfter record
        (transitionEthPhyInterfaceDown (.wanManager reads) ifname i).2)
      (transitionEthPhyInterfaceDown (.wanManager reads) ifname i).1 < 4 := by
  simp only [transitionEthPhyInterfaceDown,hagain]
  exact roundsLeft_exit_lt _

section Closer

variable {reads : Bool} {ifname : Text} {i : LinkInput} {g : PortRecord}

/-- The iteration brings the machine closer to rest. -/
def Closer (reads : Bool) (ifname : Text) (i : LinkInput) (s : EthSmState) : Prop :=
  roundsLeft (recordAfter i.record (linkStep (.wanManager reads) ifname s i).2)
    (linkStep (.wanManager reads) ifname s i).1 < roundsLeft i.record s

theorem recordAfter_transitionExit (record : Option PortRecord) :
    recordAfter record (transitionExit (.wanManager reads) ifname i).2 = record :=
  recordAfter_setWanLinkStatus record i ifname .down

theorem closer_noRecord {s : EthSmState} (hr : i.record = none) (h : roundsLeft none s ≠ 0) :
    Closer reads ifname i s := by
  unfold Closer
  cases s with
  | exit => exact absurd rfl h
  | ethDisconnected => exact absurd rfl h
  | ethValidatingLink => exact absurd rfl h
  | ethVlanConfiguring =>
    rw [linkStep,hr]
    exact Nat.zero_lt_one
  | ethWanLinkUp =>
    rw [linkStep,hr]
    exact Nat.zero_lt_one

theorem closer_exit (hr : i.record = some g) (h : roundsLeft (some g) .exit ≠ 0) :
    Closer reads ifname i .exit := by
  have hu : g.upstream = true := by simpa [roundsLeft] using h
  have hstep : linkStep (.wanManager reads) ifname .exit i = (.ethDisconnected,[]) := by
    simp [linkStep,hr,linkMove,stateExit,hu,linkTransition]
  unfold Closer
  rw [hstep,hr]
  cases hl : g.linkStatus <;> simp [recordAfter,roundsLeft,hu,hl]

theorem closer_disconnected (hr : i.record = some g)
    (h : roundsLeft (some g) .ethDisconnected ≠ 0) :
    Closer reads ifname i .ethDisconnected := by
  unfold Closer
  rw [hr]
  cases hu : g.upstream with
  | false =>
    have hstep : linkStep (.wanManager reads) ifname .ethDisconnected i =
        transitionExit (.wanManager reads) ifname i := by
      simp [linkStep,hr,linkMove,stateEthDisconnected,hu,linkTransition]
    rw [hstep,recordAfter_transitionExit]
    simp [transitionExit,roundsLeft,hu]
  | true =>
    have hl : g.linkStatus = .up := by
      cases hl : g.linkStatus with
      | up => rfl
      | down => simp [roundsLeft,hu,hl] at h
    cases hw : g.wanStatus with
    | down =>
      have hstep : linkStep (.wanManager reads) ifname .ethDisconnected i =
          (.ethValidatingLink,[]) := by
        simp [linkStep,hr,linkMove,stateEthDisconnected,hu,hl,hw,linkTransition]
      rw [hstep]
      cases hv : g.wanValidated <;> simp [recordAfter,roundsLeft,hu,hl,hw,hv]
    | up =>
      have hstep : linkStep (.wanManager reads) ifname .ethDisconnected i =
          transitionEthWanLinkUp (.wanManager reads) ifname i := by
        simp [linkStep,hr,linkMove,stateEthDisconnected,hu,hl,hw,linkTransition]
      rw [hstep,recordAfter_linkUp]
      simp [transitionEthWanLinkUp,roundsLeft,hu,hl,hw]

theorem closer_validating (hr : i.record = some g) (hagain : i.recordAgain = some g)
    (h : roundsLeft (some g) .ethValidatingLink ≠ 0) :
    Closer reads ifname i .ethValidatingLink := by
  unfold Closer
  by_cases hdown : g.upstream = false ∨ g.linkStatus = .down
  · have hstep : linkStep (.wanManager reads) ifname .ethValidatingLink i =
        transitionExit (.wanManager reads) ifname i := by
      rw [linkStep,linkMove_validating_exit_iff.mpr ⟨g,hr,hdown⟩]
      rfl
    have hrounds : roundsLeft (some g) .ethValidatingLink = 4 := if_pos hdown
    rw [hr,hstep,recordAfter_transitionExit,hrounds]
    exact roundsLeft_exit_lt _
  · have hv : g.wanValidated = true := by
      cases hv : g.wanValidated with
      | true => rfl
      | false => simp [roundsLeft,hdown,hv] at h
    have hm : linkMove i.record .ethValidatingLink = .ethWanLinkFound := by
      simp [hr,linkMove,stateEthValidatingLink,hdown,hv]
    rw [linkStep,hm]
    exact roundsLeft_linkFound hr hagain hm

theorem closer_vlanConfiguring (hr : i.record = some g) (hagain : i.recordAgain = some g)
    (h : roundsLeft (some g) .ethVlanConfiguring ≠ 0) :
    Closer reads ifname i .ethVlanConfiguring := by
  unfold Closer
  rw [hr]
  by_cases hdown : g.upstream = false ∨ g.linkStatus = .down
  · have hstep : linkStep (.wanManager reads) ifname .ethVlanConfiguring i =
        transitionEthPhyInterfaceDown (.wanManager reads) ifname i := by
      simp [linkStep,hr,linkMove,stateEthVLANConfiguring,hdown,linkTransition]
    have hrounds : roundsLeft (some g) .ethVlanConfiguring = 4 := if_pos hdown
    rw [hstep,hrounds]
    exact roundsLeft_phyDown _ hagain
  · have hw : g.wanStatus = .up := by
      cases hw : g.wanStatus with
      | up => rfl
      | down => simp [roundsLeft,hdown,hw] at h
    have hstep : linkStep (.wanManager reads) ifname .ethVlanConfiguring i =
        transitionEthWanLinkUp (.wanManager reads) ifname i := by
      simp [linkStep,hr,linkMove,stateEthVLANConfiguring,hdown,hw,linkTransition]
    rw [not_or] at hdown
    rw [hstep,recordAfter_linkUp]
    simp [transitionEthWanLinkUp,roundsLeft,hdown,hw]

theorem closer_wanLinkUp (hr : i.record = some g) (hagain : i.recordAgain = some g)
    (h : roundsLeft (some g) .ethWanLinkUp ≠ 0) : Closer reads ifname i .ethWanLinkUp := by
  have hdown : g.upstream = false ∨ g.wanStatus = .down ∨ g.linkStatus = .down := by
    by_contra hup
    simp [roundsLeft,hup] at h
  have hstep : linkStep (.wanManager reads) ifname .ethWanLinkUp i =
      transitionEthPhyInterfaceDown (.wanManager reads) ifname i := by
    simp [linkStep,hr,linkMove,stateEthWanLinkUp,hdown,linkTransition]
  have hrounds : roundsLeft (some g) .ethWanLinkUp = 4 := if_pos hdown
  unfold Closer
  rw [hr,hstep,hrounds]
  exact roundsLeft_phyDown _ hagain

theorem closer_linkStep {s : EthSmState} (hagain : i.recordAgain = i.record)
    (h : roundsLeft i.record s ≠ 0) : Closer reads ifname i s := by
  cases hr : i.record with
  | none => exact closer_noRecord hr (hr ▸ h)
  | some g =>
    rw [hr] at hagain h
    cases s with
    | exit => exact closer_exit hr h
    | ethDisconnected => exact closer_disconnected hr h
    | ethValidatingLink => exact closer_validating hr hagain h
    | ethVlanConfiguring => exact closer_vlanConfiguring hr hagain h
    | ethWanLinkUp => exact closer_wanLinkUp hr hagain h

end Closer

/-- The thread has ended or does not exist, or its state fits the record of its port. -/
def AtRest (a : LinkAgent) : Prop :=
  match a.control.thread with
  | .absent => True
  | .ended => True
  | .created => False
  | .looping => a.control.geCurrentState.Fits a.record

def agentRank (a : LinkAgent) : Nat :=
  match a.control.thread with
  | .absent => 0
  | .ended => 0
  | .created => 4
  | .looping => roundsLeft a.record a.control.geCurrentState

theorem agentRank_le (a : LinkAgent) : agentRank a ≤ 4 := by
  unfold agentRank
  cases a.control.thread with
  | looping => exact roundsLeft_le _ _
  | _ => simp

theorem agentRank_eq_zero_iff (a : LinkAgent) : agentRank a = 0 ↔ AtRest a := by
  unfold agentRank AtRest
  cases a.control.thread with
  | looping => exact roundsLeft_eq_zero_iff _ _
  | _ => simp

theorem AtRest.still {reads : Bool} {a : LinkAgent} (h : AtRest a) :
    Still (machineStep reads) a := by
  intro answers
  unfold AtRest at h
  cases ht : a.control.thread with
  | absent => simp only [machineStep,ht]
  | ended => simp only [machineStep,ht]
  | created => rw [ht] at h; exact absurd h id
  | looping =>
    rw [ht] at h
    have hstep : linkStep (.wanManager reads) (a.control.pstInfo.elim [] Buf.text)
        a.control.geCurrentState (a.input answers) = (a.control.geCurrentState,[]) := by
      rw [linkStep,show (a.input answers).record = a.record from rfl,linkMove_of_fits h]
      rfl
    simp only [machineStep,ht,hstep]
    rfl

theorem record_eq (a : LinkAgent) (name : Buf 64) (hp : a.control.pstInfo = some name) :
    a.record = cosaDmlEthPortGetCopyOfGlobalInfoForGivenIfName a.ethernet.ports
      (some name.text) := by
  rw [LinkAgent.record,hp]
  rfl

theorem record_of_no_name (a : LinkAgent) (hp : a.control.pstInfo = none) : a.record = none := by
  simp [LinkAgent.record,hp,cosaDmlEthPortGetCopyOfGlobalInfoForGivenIfName,
    cosaDmlEthPortGetIndexFromIfName]

/-- The machine finds its port as its own calls have left it. -/
theorem machineStep_record {reads : Bool} {a : LinkAgent} {answers : MachineAnswers}
    (ht : a.control.thread = .looping) :
    (machineStep reads a answers).1.record = recordAfter a.record
      (linkStep (.wanManager reads) (a.control.pstInfo.elim [] Buf.text)
        a.control.geCurrentState (a.input answers)).2 := by
  have hinfo := (machineStep_pstInfo reads a answers).1
  cases hp : a.control.pstInfo with
  | none =>
    have hrecord := record_of_no_name a hp
    rw [record_of_no_name _ (hinfo.trans hp),hrecord,
      linkStep_no_record (i := a.input answers) hrecord]
    rfl
  | some name =>
    rw [record_eq _ name (hinfo.trans hp),record_eq a name hp]
    simp only [machineStep,ht,hp,Option.elim_some,LinkAgent.setPorts]
    exact getCopy_applyCalls (fun c hc => linkStep_ifname hc) _

theorem agentRank_machineStep {reads : Bool} {a : LinkAgent} (answers : MachineAnswers)
    (h : agentRank a ≠ 0) : agentRank (machineStep reads a answers).1 < agentRank a := by
  cases ht : a.control.thread with
  | absent => exact absurd (by rw [agentRank,ht]) h
  | ended => exact absurd (by rw [agentRank,ht]) h
  | created =>
    have hrank : agentRank a = 4 := by rw [agentRank,ht]
    rw [hrank]
    cases hp : a.control.pstInfo with
    | none => simp [machineStep,ht,hp,agentRank]
    | some name =>
      simp only [machineStep,ht,hp]
      exact roundsLeft_exit_lt _
  | looping =>
    have hrank : agentRank a = roundsLeft a.record a.control.geCurrentState := by
      rw [agentRank,ht]
    have hthread : (machineStep reads a answers).1.control.thread = .looping := by
      simp only [machineStep,ht]
      exact ht
    have hnext : agentRank (machineStep reads a answers).1 =
        roundsLeft (machineStep reads a answers).1.record
          (machineStep reads a answers).1.control.geCurrentState := by
      rw [agentRank,hthread]
    rw [hrank] at h
    rw [hrank,hnext,machineStep_record ht]
    simp only [machineStep,ht]
    exact closer_linkStep (i := a.input answers) rfl h

/-- Left to itself for four iterations, whatever syscfg and the WAN manager answer, the
machine is at rest: its state fits the record of its port, and no later iteration changes
anything or makes a call. -/
theorem machine_comes_to_rest (reads : Bool) (a : LinkAgent) (answers : List MachineAnswers)
    (h : 4 ≤ answers.length) :
    AtRest (exec (silent (machineStep reads)) a answers) ∧
      ∀ later, exec (logged (machineStep reads)) (exec (silent (machineStep reads)) a answers,[])
        later = (exec (silent (machineStep reads)) a answers,[]) := by
  have hrank : agentRank (exec (silent (machineStep reads)) a answers) = 0 :=
    rank_exec (fun a ha => ((agentRank_eq_zero_iff a).mp ha).still)
      (fun a answers ha => agentRank_machineStep answers ha) a answers
      ((agentRank_le a).trans h)
  have hrest := (agentRank_eq_zero_iff _).mp hrank
  exact ⟨hrest,fun later => hrest.still.exec [] later⟩

def startedAgent : LinkAgent :=
  ⟨(exec (silent (agentStep fourPorts false)) fourPortsAgent
    [.setUpstream (some "eth0".toList) true succeed,
      .linkStatus (some "eth0".toList) (some "Up".toList)]).ethernet,
    ⟨some (Buf.store "eth0".toList),true,.created,.exit⟩⟩

theorem started_machine_comes_to_rest :
    (exec (silent (machineStep false)) startedAgent
        (List.replicate 4 ⟨none,true,true⟩)).control.geCurrentState = .ethVlanConfiguring ∧
      AtRest (exec (silent (machineStep false)) startedAgent (List.replicate 4 ⟨none,true,true⟩)) :=
  ⟨by decide +kernel,(machine_comes_to_rest false startedAgent _ (by simp)).1⟩

end EthAgent
