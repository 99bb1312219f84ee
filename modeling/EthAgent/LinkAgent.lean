import EthAgent.LinkMachine
import EthAgent.PortRows

/-!
The link state machine in its surroundings: the one thread that runs it, the
port tables it reads, and the requests that start it or change what it reads.
The events interleave in any order; each is one critical section of the source,
or one iteration of the thread.
-/

set_option autoImplicit false

namespace EthAgent
open CString Packed Runs

/-- How far `CcspEthManager_StateMachineThread` has got. Its loop never ends. -/
inductive SmThread where
  | absent
  | created
  | looping
  | ended
  deriving DecidableEq

/-- The file-scope variables of cosa_ethernet_manager.c, and the thread. -/
structure LinkControl where
  pstInfo : Option (Buf 64)
  stateMachineThreadStart : Bool
  thread : SmThread
  geCurrentState : EthSmState
  deriving DecidableEq

structure LinkAgent where
  ethernet : Ethernet
  control : LinkControl

def linkControlInit : LinkControl := ⟨none,false,.absent,.exit⟩

/-- Whether `malloc` and `pthread_create` succeed. -/
structure StartAnswers where
  allocated : Bool
  created : Bool

def cosaEthManagerStartStateMachine (c : LinkControl) (name : Buf 64) (start : StartAnswers) :
    LinkControl :=
  if start.allocated then
    let c := { c with pstInfo := some name }
    if c.stateMachineThreadStart then c
    else if start.created then { c with stateMachineThreadStart := true, thread := .created }
    else c
  else { c with pstInfo := none }

def LinkAgent.setPorts (a : LinkAgent) (t : PortTable) : LinkAgent :=
  { a with ethernet := { a.ethernet with ports := t } }

def LinkAgent.modifyRow (a : LinkAgent) (ins : Nat) (f : EthRow → EthRow) : LinkAgent :=
  { a with ethernet :=
    { a.ethernet with qEthList := EthAgent.modifyRow ins f a.ethernet.qEthList } }

def cosaDmlEthPortSetUpstream (a : LinkAgent) (ifname : Option Text) (upstream : Bool)
    (start : StartAnswers) : Bool × LinkAgent :=
  match cosaDmlEthPortGetIndexFromIfName a.ethernet.ports ifname with
  | none => (false,a)
  | some ifIndex =>
    match a.ethernet.ports.records[ifIndex]? with
    | none => (false,a)
    | some record =>
      if record.upstream = upstream then (true,a)
      else
        let a := a.setPorts
          (a.ethernet.ports.modifyRecord ifIndex fun r => { r with upstream := upstream })
        if upstream then
          (true,{ a with
            control :=
              cosaEthManagerStartStateMachine a.control (Buf.store record.name.text) start })
        else (true,a)

/-- `CosaDmlEthPortLinkStatusCallback`, without its message to the event queue. -/
def cosaDmlEthPortLinkStatusCallback (t : PortTable) (ifname state : Option Text) : PortTable :=
  match state with
  | none => t
  | some state =>
    let linkStatus := if (state.take 2).map Char.toLower = ['u','p'] then .up else .down
    match cosaDmlEthPortGetIndexFromIfName t ifname with
    | none => t
    | some ifIndex => t.modifyRecord ifIndex fun r => { r with linkStatus := linkStatus }

def cosaDmlTriggerExternalEthPortLinkStatus (p : Platform) (t : PortTable)
    (ifname : Option Text) (status : Bool) : PortTable :=
  match cosaDmlEthPortGetIndexFromIfName t ifname with
  | none => t
  | some ifIndex =>
    if ifIndex < p.totalNumberOfInternalInterfaces then t
    else
      cosaDmlEthPortLinkStatusCallback t ifname
        (some (if status then "Up".toList else "Down".toList))

/-- `CosaDmlEthPortSetWanValidated` ignores both its arguments. -/
def cosaDmlEthPortSetWanValidated (t : PortTable) (_ifIndex : Nat) (_wanValidated : Bool) :
    PortTable := t

inductive BoolParam where
  | upstream
  | enable
  | wanValidated

def ethRdkInterfaceSetParamBoolValue (p : Platform) (a : LinkAgent) (ins : Nat)
    (paramName : BoolParam) (bValue : Bool) (start : StartAnswers) : LinkAgent :=
  match a.ethernet.row ins with
  | none => a
  | some row =>
    match paramName with
    | .upstream =>
      if bValue = row.upstream then a
      else
        let a := a.modifyRow ins fun r => { r with upstream := bValue }
        (cosaDmlEthPortSetUpstream a (some row.name.text) bValue start).2
    | .enable =>
      if bValue = row.enable then a
      else
        let a := a.setPorts (cosaDmlTriggerExternalEthPortLinkStatus p a.ethernet.ports
          (some row.name.text) bValue)
        a.modifyRow ins fun r => { r with enable := bValue }
    | .wanValidated =>
      if bValue = row.wanValidated then a
      else
        let a := a.modifyRow ins fun r => { r with wanValidated := bValue }
        a.setPorts (cosaDmlEthPortSetWanValidated a.ethernet.ports (row.ulInstanceNumber-1)
          bValue)

def ethRdkInterfaceSetParamUlongValue (a : LinkAgent) (ins : Nat) (uValue : WanStatus) :
    LinkAgent :=
  match a.ethernet.row ins with
  | none => a
  | some row =>
    if uValue = row.wanStatus then a
    else
      let a := a.modifyRow ins fun r => { r with wanStatus := uValue }
      a.setPorts (cosaDmlEthPortSetWanStatus a.ethernet.ports (some row.name.text) uValue).2

inductive UlongParam where
  | status
  | wanStatus

def ethRdkInterfaceGetParamUlongValue (a : LinkAgent) (ins : Nat) (paramName : UlongParam) :
    LinkAgent :=
  match a.ethernet.row ins with
  | none => a
  | some row =>
    match cosaDmlEthPortGetCopyOfGlobalInfoForGivenIfName a.ethernet.ports
        (some row.name.text) with
    | none => a
    | some record =>
      match paramName with
      | .status => a.modifyRow ins fun r => { r with linkStatus := record.linkStatus }
      | .wanStatus => a.modifyRow ins fun r => { r with wanStatus := record.wanStatus }

/-- What syscfg and the WAN manager answer during one iteration. -/
structure MachineAnswers where
  wanPhysicalIfname : Option Text
  nameDelivered : Bool
  statusDelivered : Bool

def LinkAgent.record (a : LinkAgent) : Option PortRecord :=
  cosaDmlEthPortGetCopyOfGlobalInfoForGivenIfName a.ethernet.ports
    (a.control.pstInfo.map Buf.text)

def LinkAgent.input (a : LinkAgent) (answers : MachineAnswers) : LinkInput :=
  ⟨a.record,a.record,answers.wanPhysicalIfname,answers.nameDelivered,answers.statusDelivered⟩

def applyCall (t : PortTable) : LinkCall → PortTable
  | .setPortWanStatus ifname wanStatus => (cosaDmlEthPortSetWanStatus t (some ifname) wanStatus).2
  | _ => t

def machineStep (reads : Bool) (a : LinkAgent) (answers : MachineAnswers) :
    LinkAgent × List LinkCall :=
  match a.control.thread with
  | .absent => (a,[])
  | .ended => (a,[])
  | .created =>
    match a.control.pstInfo with
    | none => ({ a with control := { a.control with thread := .ended } },[])
    | some _ =>
      ({ a with control := { a.control with thread := .looping, geCurrentState := .exit } },[])
  | .looping =>
    let next := linkStep (.wanManager reads) (a.control.pstInfo.elim [] Buf.text)
      a.control.geCurrentState (a.input answers)
    let a := a.setPorts (next.2.foldl applyCall a.ethernet.ports)
    ({ a with control := { a.control with geCurrentState := next.1 } },next.2)

inductive LinkEvent where
  | setUpstream (ifname : Option Text) (upstream : Bool) (start : StartAnswers)
  | linkStatus (ifname state : Option Text)
  | setBool (ins : Nat) (paramName : BoolParam) (bValue : Bool) (start : StartAnswers)
  | setWanStatus (ins : Nat) (uValue : WanStatus)
  | setString (ins : Nat) (paramName : StringParam) (pString : Text)
  | getUlong (ins : Nat) (paramName : UlongParam)
  | machine (answers : MachineAnswers)

def agentStep (p : Platform) (reads : Bool) (a : LinkAgent) :
    LinkEvent → LinkAgent × List LinkCall
  | .setUpstream ifname upstream start => ((cosaDmlEthPortSetUpstream a ifname upstream start).2,[])
  | .linkStatus ifname state =>
    (a.setPorts (cosaDmlEthPortLinkStatusCallback a.ethernet.ports ifname state),[])
  | .setBool ins paramName bValue start =>
    (ethRdkInterfaceSetParamBoolValue p a ins paramName bValue start,[])
  | .setWanStatus ins uValue => (ethRdkInterfaceSetParamUlongValue a ins uValue,[])
  | .setString ins paramName pString =>
    ({ a with
      ethernet := (ethRdkInterfaceSetParamStringValue p a.ethernet ins paramName pString).2 },[])
  | .getUlong ins paramName => (ethRdkInterfaceGetParamUlongValue a ins paramName,[])
  | .machine answers => machineStep reads a answers

def upstreamRequest (t : PortTable) (ifname : Option Text) (upstream : Bool)
    (start : StartAnswers) : Option (Buf 64 × StartAnswers) :=
  (cosaDmlEthPortGetCopyOfGlobalInfoForGivenIfName t ifname).bind fun record =>
    if record.upstream = false ∧ upstream = true then some (Buf.store record.name.text,start)
    else none

/-- The start of the machine that an event makes, with the name it is for. -/
def startRequest (a : LinkAgent) : LinkEvent → Option (Buf 64 × StartAnswers)
  | .setUpstream ifname upstream start =>
    upstreamRequest a.ethernet.ports ifname upstream start
  | .setBool ins .upstream bValue start =>
    (a.ethernet.row ins).bind fun row =>
      if bValue = row.upstream then none
      else upstreamRequest a.ethernet.ports (some row.name.text) bValue start
  | _ => none

theorem setUpstream_control (a : LinkAgent) (ifname : Option Text) (upstream : Bool)
    (start : StartAnswers) :
    (cosaDmlEthPortSetUpstream a ifname upstream start).2.control =
      match upstreamRequest a.ethernet.ports ifname upstream start with
      | none => a.control
      | some (name,start) => cosaEthManagerStartStateMachine a.control name start := by
  unfold cosaDmlEthPortSetUpstream upstreamRequest
    cosaDmlEthPortGetCopyOfGlobalInfoForGivenIfName
  cases hi : cosaDmlEthPortGetIndexFromIfName a.ethernet.ports ifname with
  | none => rfl
  | some i =>
    cases hr : a.ethernet.ports.records[i]? with
    | none => simp [hr]
    | some record =>
      cases hu : record.upstream <;> cases upstream <;>
        simp [hr,hu,LinkAgent.setPorts]

/-- Outside the thread, only a start request touches the machine's variables. -/
theorem agentStep_control (p : Platform) (reads : Bool) (a : LinkAgent) {ev : LinkEvent}
    (hev : ∀ answers, ev ≠ .machine answers) :
    (agentStep p reads a ev).2 = [] ∧
      (agentStep p reads a ev).1.control =
        match startRequest a ev with
        | none => a.control
        | some (name,start) => cosaEthManagerStartStateMachine a.control name start := by
  cases ev with
  | setUpstream ifname upstream start =>
    exact ⟨rfl,setUpstream_control a ifname upstream start⟩
  | linkStatus ifname state => exact ⟨rfl,rfl⟩
  | setBool ins paramName bValue start =>
    refine ⟨rfl,?_⟩
    simp only [agentStep,ethRdkInterfaceSetParamBoolValue]
    cases hrow : a.ethernet.row ins with
    | none => cases paramName <;> simp [startRequest,hrow]
    | some row =>
      cases paramName with
      | upstream =>
        by_cases hsame : bValue = row.upstream
        · simp [startRequest,hrow,hsame]
        · simp only [if_neg hsame,setUpstream_control]
          simp only [startRequest,hrow,Option.bind_some,if_neg hsame]
          rfl
      | enable => simp only [startRequest]; split <;> rfl
      | wanValidated => simp only [startRequest]; split <;> rfl
  | setWanStatus ins uValue =>
    refine ⟨rfl,?_⟩
    simp only [agentStep,ethRdkInterfaceSetParamUlongValue,startRequest]
    cases hrow : a.ethernet.row ins with
    | none => rfl
    | some row => simp only; split <;> rfl
  | setString ins paramName pString => exact ⟨rfl,rfl⟩
  | getUlong ins paramName =>
    refine ⟨rfl,?_⟩
    simp only [agentStep,ethRdkInterfaceGetParamUlongValue,startRequest]
    repeat' split
    all_goals rfl
  | machine answers => exact absurd rfl (hev answers)

theorem linkStep_no_record {b : LinkBuild} {ifname : Text} {s : EthSmState} {i : LinkInput}
    (h : i.record = none) : (linkStep b ifname s i).2 = [] := by
  unfold linkStep
  rw [h]
  cases s <;> rfl

theorem machineStep_pstInfo (reads : Bool) (a : LinkAgent) (answers : MachineAnswers) :
    (machineStep reads a answers).1.control.pstInfo = a.control.pstInfo ∧
      (machineStep reads a answers).1.control.stateMachineThreadStart =
        a.control.stateMachineThreadStart ∧
      ∀ c ∈ (machineStep reads a answers).2,
        ∃ name, a.control.pstInfo = some name ∧ c.ifname = name.text := by
  unfold machineStep
  cases ht : a.control.thread with
  | absent => exact ⟨rfl,rfl,fun _ hc => absurd hc List.not_mem_nil⟩
  | ended => exact ⟨rfl,rfl,fun _ hc => absurd hc List.not_mem_nil⟩
  | created =>
    cases hp : a.control.pstInfo <;>
      exact ⟨by simp [hp],rfl,fun _ hc => absurd hc List.not_mem_nil⟩
  | looping =>
    refine ⟨rfl,rfl,fun c hc => ?_⟩
    cases hp : a.control.pstInfo with
    | none =>
      have hrecord : (a.input answers).record = none := by
        simp [LinkAgent.input,LinkAgent.record,hp,
          cosaDmlEthPortGetCopyOfGlobalInfoForGivenIfName,cosaDmlEthPortGetIndexFromIfName]
      simp only [linkStep_no_record hrecord] at hc
      exact absurd hc List.not_mem_nil
    | some name =>
      have hname := linkStep_ifname hc
      rw [hp] at hname
      exact ⟨name,rfl,hname⟩

def linkStatusOf (x : Text) : LinkCall → Option WanStatus
  | .setWanLinkStatus ifname status => if ifname = x then some status else none
  | _ => none

/-- Before any call for an interface, every other one was last announced as down,
or never. -/
def AnnouncedDownFirst (p : LinkAgent × List LinkCall) : Prop :=
  ∀ before c after, p.2 = before ++ c :: after →
    ∀ x, x ≠ c.ifname → lastOf (linkStatusOf x) before ≠ some .up

/-- A start request for another interface does not redirect a machine that is
running. -/
def KeepsIdentity (p : Platform) (reads : Bool) (a : LinkAgent × List LinkCall)
    (ev : LinkEvent) : Prop :=
  a.1.control.stateMachineThreadStart = true →
    ∀ name start, startRequest a.1 ev = some (name,start) → a.1.control.pstInfo ≠ some name →
      (agentStep p reads a.1 ev).1.control.pstInfo = a.1.control.pstInfo

/-- While the machine runs, it is started again for its own interface only. If a
failed `malloc` has left it without one, the next `malloc` fails too. -/
def OwnRequests (a : LinkAgent × List LinkCall) (ev : LinkEvent) : Prop :=
  a.1.control.stateMachineThreadStart = true →
    ∀ name start, startRequest a.1 ev = some (name,start) →
      a.1.control.pstInfo = some name ∨
        a.1.control.pstInfo = none ∧ start.allocated = false

/-- All calls so far were made for one interface, which `pstInfo` holds unless a
`malloc` has failed. -/
structure OneInterface (a : LinkAgent × List LinkCall) : Prop where
  idle : a.1.control.stateMachineThreadStart = false →
    a.1.control.thread = .absent ∧ a.2 = []
  running : a.1.control.stateMachineThreadStart = true →
    ∃ name, (∀ own, a.1.control.pstInfo = some own → own = name) ∧
      ∀ c ∈ a.2, c.ifname = name.text

theorem OneInterface.announcedDownFirst {a : LinkAgent × List LinkCall}
    (h : OneInterface a) : AnnouncedDownFirst a := by
  intro before c after hlog x hx hup
  cases hs : a.1.control.stateMachineThreadStart with
  | false =>
    have hnil := (h.idle hs).2
    rw [hlog] at hnil
    exact absurd hnil (by simp)
  | true =>
    obtain ⟨name,-,hall⟩ := h.running hs
    rw [hlog] at hall
    have hc := hall c (by simp)
    have hnone : before.filterMap (linkStatusOf x) = [] := by
      refine List.filterMap_eq_nil_iff.mpr fun c' hc' => ?_
      have hname := hall c' (List.mem_append_left _ hc')
      cases c' with
      | setWanLinkStatus ifname status =>
        have hne : ifname ≠ x := fun heq => hx (by rw [← heq,hc]; exact hname)
        simp [linkStatusOf,hne]
      | _ => rfl
    rw [lastOf,hnone] at hup
    exact absurd hup (by simp)

theorem OneInterface.machineStep {a : LinkAgent × List LinkCall} (h : OneInterface a)
    (p : Platform) (reads : Bool) (answers : MachineAnswers) :
    OneInterface (logged (agentStep p reads) a (.machine answers)) := by
  obtain ⟨hinfo,hstart,hcalls⟩ := machineStep_pstInfo reads a.1 answers
  refine ⟨fun hs => ?_,fun hs => ?_⟩
  · rw [show (logged (agentStep p reads) a (.machine answers)).1.control.stateMachineThreadStart
      = a.1.control.stateMachineThreadStart from hstart] at hs
    obtain ⟨hthread,hlog⟩ := h.idle hs
    simp [logged,agentStep,EthAgent.machineStep,hthread,hlog]
  · rw [show (logged (agentStep p reads) a (.machine answers)).1.control.stateMachineThreadStart
      = a.1.control.stateMachineThreadStart from hstart] at hs
    obtain ⟨name,hname,hall⟩ := h.running hs
    refine ⟨name,fun own hown => hname own (hinfo.symm.trans hown),fun c hc => ?_⟩
    rcases List.mem_append.mp hc with hc | hc
    · exact hall c hc
    · obtain ⟨own,hown,hc⟩ := hcalls c hc
      rw [hc,hname own hown]

/-- A start request for the own interface, or one without memory, adds no identity. -/
theorem OneInterface.start {a : LinkAgent × List LinkCall} (h : OneInterface a)
    {name : Buf 64} {start : StartAnswers} {e : Ethernet}
    (hown : a.1.control.stateMachineThreadStart = true →
      a.1.control.pstInfo = some name ∨
        a.1.control.pstInfo = none ∧ start.allocated = false) :
    OneInterface (⟨e,cosaEthManagerStartStateMachine a.1.control name start⟩,a.2) := by
  unfold cosaEthManagerStartStateMachine
  cases hs : a.1.control.stateMachineThreadStart with
  | true =>
    obtain ⟨first,hfirst,hall⟩ := h.running hs
    cases halloc : start.allocated with
    | false => exact ⟨by simp,fun _ => ⟨first,by simp,hall⟩⟩
    | true =>
      have hinfo := (hown hs).resolve_right (by simp [halloc])
      have hname := hfirst name hinfo
      exact ⟨by simp,fun _ => ⟨first,by simp [hname],hall⟩⟩
  | false =>
    obtain ⟨hthread,hlog⟩ := h.idle hs
    cases halloc : start.allocated with
    | false => exact ⟨fun _ => by simp [hthread,hlog],by simp⟩
    | true =>
      cases hcreated : start.created with
      | false => exact ⟨fun _ => by simp [hthread,hlog],by simp⟩
      | true => exact ⟨by simp,fun _ => ⟨name,by simp,by simp [hlog]⟩⟩

theorem OneInterface.step {p : Platform} {reads : Bool} {a : LinkAgent × List LinkCall}
    (h : OneInterface a) {ev : LinkEvent} (hown : OwnRequests a ev) :
    OneInterface (logged (agentStep p reads) a ev) := by
  by_cases hev : ∃ answers, ev = .machine answers
  · obtain ⟨answers,rfl⟩ := hev
    exact h.machineStep p reads answers
  · obtain ⟨hcalls,hcontrol⟩ := agentStep_control p reads a.1 (not_exists.mp hev)
    cases hreq : startRequest a.1 ev with
    | none =>
      rw [hreq] at hcontrol
      exact ⟨by simpa [logged,hcalls,hcontrol] using h.idle,
        by simpa [logged,hcalls,hcontrol] using h.running⟩
    | some q =>
      obtain ⟨name,start⟩ := q
      rw [hreq] at hcontrol
      have hstart := h.start (e := (agentStep p reads a.1 ev).1.ethernet)
        (fun hs => hown hs name start hreq)
      exact ⟨by simpa [logged,hcalls,hcontrol] using hstart.idle,
        by simpa [logged,hcalls,hcontrol] using hstart.running⟩

/-- A request for another interface always redirects the machine. -/
theorem ownRequests_iff (p : Platform) (reads : Bool) (a : LinkAgent × List LinkCall)
    (ev : LinkEvent) : OwnRequests a ev ↔ KeepsIdentity p reads a ev := by
  unfold OwnRequests KeepsIdentity
  by_cases hev : ∃ answers, ev = .machine answers
  · obtain ⟨answers,rfl⟩ := hev
    simp [startRequest]
  · have hcontrol := (agentStep_control p reads a.1 (not_exists.mp hev)).2
    refine forall_congr' fun hs => forall_congr' fun name => forall_congr' fun start =>
      forall_congr' fun hreq => ?_
    rw [hreq] at hcontrol
    rw [hcontrol]
    cases halloc : start.allocated with
    | false =>
      cases hinfo : a.1.control.pstInfo <;>
        simp [cosaEthManagerStartStateMachine,halloc]
    | true =>
      simp only [cosaEthManagerStartStateMachine,halloc,hs,if_true,Bool.true_eq_false,
        and_false,or_false,ne_eq]
      exact ⟨fun heq hne => absurd heq hne,fun hne => by_contra fun h => h (hne h).symm⟩

/-- Along every run the machine keeps its interface, and announces it as down
before it acts for another, exactly as long as no start request for another
interface comes while it runs. -/
theorem keeps_identity_iff (p : Platform) (reads : Bool) (e : Ethernet)
    (events : List LinkEvent) :
    (Always (logged (agentStep p reads)) AnnouncedDownFirst (⟨e,linkControlInit⟩,[]) events ∧
        Meets (logged (agentStep p reads)) (KeepsIdentity p reads) (⟨e,linkControlInit⟩,[])
          events) ↔
      Meets (logged (agentStep p reads)) OwnRequests (⟨e,linkControlInit⟩,[]) events := by
  have hinit : OneInterface (⟨e,linkControlInit⟩,[]) :=
    ⟨fun _ => ⟨rfl,rfl⟩,fun hs => absurd hs Bool.false_ne_true⟩
  have hmeets : Meets (logged (agentStep p reads)) OwnRequests (⟨e,linkControlInit⟩,[]) events ↔
      Meets (logged (agentStep p reads)) (KeepsIdentity p reads) (⟨e,linkControlInit⟩,[])
        events :=
    meets_congr (J := OneInterface) hinit (fun _ _ h hc => h.step hc)
      (fun a ev _ => ownRequests_iff p reads a ev)
  refine ⟨fun h => hmeets.mpr h.2,fun h => ⟨?_,hmeets.mp h⟩⟩
  exact always_of_meets (J := OneInterface) hinit (fun _ _ hi hc => hi.step hc)
    (fun _ hi => hi.announcedDownFirst) h

def succeed : StartAnswers := ⟨true,true⟩
def iterate : LinkEvent := .machine ⟨none,true,true⟩

def fourPortsAgent : LinkAgent := ⟨cosaDmlEthPortInit fourPorts unconfigured,linkControlInit⟩

def redirectingEvents : List LinkEvent :=
  [.setUpstream (some "eth0".toList) true succeed,
    .linkStatus (some "eth0".toList) (some "Up".toList),iterate,iterate,iterate,iterate,
    .setWanStatus 1 .up,iterate,.setUpstream (some "eth1".toList) true succeed,iterate]

def redirectedCalls : List LinkCall :=
  [.createEthLink "eth0".toList "Device.Ethernet.X_RDK_Interface.1".toList,
    .setWanInterfaceName "eth0".toList,.setWanLinkStatus "eth0".toList .up,
    .setPortWanStatus "eth1".toList .down,
    .deleteEthLink "eth1".toList "Device.Ethernet.X_RDK_Interface.2".toList,
    .setWanLinkStatus "eth1".toList .down]

theorem redirectingEvents_calls :
    (exec (logged (agentStep fourPorts false)) (fourPortsAgent,[]) redirectingEvents).2 =
      redirectedCalls := by
  decide +kernel

theorem start_request_redirects_machine :
    ¬ (Always (logged (agentStep fourPorts false)) AnnouncedDownFirst (fourPortsAgent,[])
        redirectingEvents ∧
      Meets (logged (agentStep fourPorts false)) (KeepsIdentity fourPorts false)
        (fourPortsAgent,[]) redirectingEvents) := by
  rintro ⟨h,-⟩
  have hsplit := redirectingEvents_calls
  exact h.last (redirectedCalls.take 3) (.setPortWanStatus "eth1".toList .down)
    (redirectedCalls.drop 4) hsplit "eth0".toList (by decide) (by decide +kernel)

end EthAgent
