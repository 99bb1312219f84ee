import EthAgent.PortTable
import EthAgent.Lib.Runs

/-!
The link state machine of cosa_ethernet_manager.c for one interface. Each step
looks its port up by name and returns a new state, by way of a transition that
calls the VLAN and WAN agents, or directly.
-/

set_option autoImplicit false

namespace EthAgent
open CString Runs

inductive EthSmState where
  | exit
  | ethDisconnected
  | ethValidatingLink
  | ethVlanConfiguring
  | ethWanLinkUp
  deriving DecidableEq, Repr

/-- The two builds of the machine. Some platforms of the second read
`wan_physical_ifname` from syscfg. -/
inductive LinkBuild where
  | wanAgent
  | wanManager (readsWanPhysicalIfname : Bool)
  deriving DecidableEq

inductive LinkCall where
  | createEthLink (ifname path : Text)
  | deleteEthLink (ifname path : Text)
  | setPortWanStatus (ifname : Text) (wanStatus : WanStatus)
  | setWanInterfaceName (ifname : Text)
  | setWanLinkStatus (ifname : Text) (status : WanStatus)
  | setWanStatusForWanAgent (ifname : Text) (status : WanStatus)
  deriving DecidableEq

def LinkCall.ifname : LinkCall → Text
  | .createEthLink ifname _ => ifname
  | .deleteEthLink ifname _ => ifname
  | .setPortWanStatus ifname _ => ifname
  | .setWanInterfaceName ifname => ifname
  | .setWanLinkStatus ifname _ => ifname
  | .setWanStatusForWanAgent ifname _ => ifname

/-- What one step reads: the port record at its top and in its transition, where
the lookup may fail, `wan_physical_ifname`, and whether the WAN manager has an
entry for the interface when its name and when its link status is sent. -/
structure LinkInput where
  record : Option PortRecord
  recordAgain : Option PortRecord
  wanPhysicalIfname : Option Text
  nameDelivered : Bool
  statusDelivered : Bool

/-- What a state function returns: a state, or the call of a transition. -/
inductive LinkMove where
  | goto (state : EthSmState)
  | ethPhyInterfaceUp
  | ethWanLinkFound
  | ethWanLinkUp
  | ethPhyInterfaceDown
  | exit
  deriving DecidableEq

def stateExit : Option PortRecord → LinkMove
  | none => .goto .exit
  | some stGlobalInfo => if stGlobalInfo.upstream then .goto .ethDisconnected else .goto .exit

def stateEthDisconnected : Option PortRecord → LinkMove
  | none => .goto .ethDisconnected
  | some stGlobalInfo =>
    if stGlobalInfo.upstream = false then .exit
    else if stGlobalInfo.linkStatus = .up ∧ stGlobalInfo.wanStatus = .down then
      .ethPhyInterfaceUp
    else if stGlobalInfo.linkStatus = .up ∧ stGlobalInfo.wanStatus = .up then .ethWanLinkUp
    else .goto .ethDisconnected

def stateEthValidatingLink : Option PortRecord → LinkMove
  | none => .goto .ethValidatingLink
  | some stGlobalInfo =>
    if stGlobalInfo.upstream = false ∨ stGlobalInfo.linkStatus = .down then .exit
    else if stGlobalInfo.wanValidated then .ethWanLinkFound
    else .goto .ethValidatingLink

def stateEthVLANConfiguring : Option PortRecord → LinkMove
  | none => .goto .ethValidatingLink
  | some stGlobalInfo =>
    if stGlobalInfo.upstream = false ∨ stGlobalInfo.linkStatus = .down then
      .ethPhyInterfaceDown
    else if stGlobalInfo.wanStatus = .up then .ethWanLinkUp
    else .goto .ethVlanConfiguring

def stateEthWanLinkUp : Option PortRecord → LinkMove
  | none => .goto .ethValidatingLink
  | some stGlobalInfo =>
    if stGlobalInfo.upstream = false ∨ stGlobalInfo.wanStatus = .down ∨
        stGlobalInfo.linkStatus = .down then .ethPhyInterfaceDown
    else .goto .ethWanLinkUp

/-- The switch of `CcspEthManager_StateMachineThread`. -/
def linkMove (record : Option PortRecord) : EthSmState → LinkMove
  | .ethDisconnected => stateEthDisconnected record
  | .ethValidatingLink => stateEthValidatingLink record
  | .ethVlanConfiguring => stateEthVLANConfiguring record
  | .ethWanLinkUp => stateEthWanLinkUp record
  | .exit => stateExit record

/-- `CosaDmlEthSetWanLinkStatusForWanManager`. -/
def setWanLinkStatus (i : LinkInput) (ifname : Text) (status : WanStatus) : List LinkCall :=
  if i.statusDelivered then [.setWanLinkStatus ifname status] else []

def setWanInterfaceName (i : LinkInput) (ifname : Text) : List LinkCall :=
  if i.nameDelivered then [.setWanInterfaceName ifname] else []

def transitionEthWanLinkUp (b : LinkBuild) (ifname : Text) (i : LinkInput) :
    EthSmState × List LinkCall :=
  (.ethWanLinkUp,
    match b with
    | .wanAgent => [.setWanStatusForWanAgent ifname .up]
    | .wanManager _ => setWanInterfaceName i ifname ++ setWanLinkStatus i ifname .up)

def transitionEthWanLinkFound (b : LinkBuild) (ifname : Text) (i : LinkInput) :
    EthSmState × List LinkCall :=
  match i.recordAgain with
  | none => (.ethValidatingLink,[])
  | some stGlobalInfo =>
    match b with
    | .wanAgent =>
      (.ethVlanConfiguring,[.createEthLink ifname stGlobalInfo.path.text])
    | .wanManager readsWanPhysicalIfname =>
      if readsWanPhysicalIfname ∧ i.wanPhysicalIfname = some "erouter0".toList then
        let up := transitionEthWanLinkUp b ifname i
        (up.1,.setPortWanStatus ifname .up :: up.2)
      else (.ethVlanConfiguring,[.createEthLink ifname stGlobalInfo.lowerLayers.text])

def transitionEthPhyInterfaceDown (b : LinkBuild) (ifname : Text) (i : LinkInput) :
    EthSmState × List LinkCall :=
  match i.recordAgain with
  | none => (.ethValidatingLink,[])
  | some stGlobalInfo =>
    (.exit,
      match b with
      | .wanAgent =>
        [.deleteEthLink ifname stGlobalInfo.path.text,.setWanStatusForWanAgent ifname .down]
      | .wanManager _ =>
        [.setPortWanStatus ifname .down,.deleteEthLink ifname stGlobalInfo.lowerLayers.text] ++
          setWanLinkStatus i ifname .down)

def transitionExit (b : LinkBuild) (ifname : Text) (i : LinkInput) :
    EthSmState × List LinkCall :=
  (.exit,
    match b with
    | .wanAgent => []
    | .wanManager _ => setWanLinkStatus i ifname .down)

def linkTransition (b : LinkBuild) (ifname : Text) (i : LinkInput) :
    LinkMove → EthSmState × List LinkCall
  | .goto state => (state,[])
  | .ethPhyInterfaceUp => (.ethValidatingLink,[])
  | .ethWanLinkFound => transitionEthWanLinkFound b ifname i
  | .ethWanLinkUp => transitionEthWanLinkUp b ifname i
  | .ethPhyInterfaceDown => transitionEthPhyInterfaceDown b ifname i
  | .exit => transitionExit b ifname i

/-- One iteration of the loop of `CcspEthManager_StateMachineThread`. -/
def linkStep (b : LinkBuild) (ifname : Text) (s : EthSmState) (i : LinkInput) :
    EthSmState × List LinkCall :=
  linkTransition b ifname i (linkMove i.record s)

def linkRun (b : LinkBuild) (ifname : Text) (inputs : List LinkInput) :
    EthSmState × List LinkCall :=
  exec (logged (linkStep b ifname)) (.exit,[]) inputs

/-- The states in which the machine holds no link. -/
def EthSmState.idle (s : EthSmState) : Prop := s = .exit ∨ s = .ethDisconnected

/-- What a state function knows when it makes each move. -/
def LinkMove.Guard (record : Option PortRecord) (s : EthSmState) : LinkMove → Prop
  | .goto s' => s'.idle → s.idle
  | .ethPhyInterfaceUp => s = .ethDisconnected
  | .ethWanLinkFound =>
    s = .ethValidatingLink ∧
      ∃ g, record = some g ∧ g.upstream = true ∧ g.linkStatus = .up ∧ g.wanValidated = true
  | .ethWanLinkUp => s = .ethDisconnected ∨ s = .ethVlanConfiguring
  | .ethPhyInterfaceDown => s = .ethVlanConfiguring ∨ s = .ethWanLinkUp
  | .exit =>
    s = .ethDisconnected ∨ s = .ethValidatingLink ∧
      ∃ g, record = some g ∧ (g.upstream = false ∨ g.linkStatus = .down)

theorem not_idle_validating : ¬ EthSmState.idle .ethValidatingLink := by
  simp [EthSmState.idle]

theorem linkMove_guard (record : Option PortRecord) (s : EthSmState) :
    (linkMove record s).Guard record s := by
  cases record with
  | none =>
    cases s with
    | exit => exact id
    | ethDisconnected => exact id
    | ethValidatingLink => exact id
    | ethVlanConfiguring => exact fun h => absurd h not_idle_validating
    | ethWanLinkUp => exact fun h => absurd h not_idle_validating
  | some g =>
    cases s with
    | exit =>
      simp only [linkMove,stateExit]
      split <;> exact fun _ => .inl rfl
    | ethDisconnected =>
      simp only [linkMove,stateEthDisconnected]
      split
      · exact .inl rfl
      · split
        · rfl
        · split
          · exact .inl rfl
          · exact id
    | ethValidatingLink =>
      simp only [linkMove,stateEthValidatingLink]
      split
      · next hdown => exact .inr ⟨rfl,g,rfl,hdown⟩
      · next hup =>
        rw [not_or] at hup
        split
        · next hval =>
          have hlink : g.linkStatus = .up := by
            cases hl : g.linkStatus with
            | up => rfl
            | down => exact absurd hl hup.2
          exact ⟨rfl,g,rfl,by simpa using hup.1,hlink,hval⟩
        · exact id
    | ethVlanConfiguring =>
      simp only [linkMove,stateEthVLANConfiguring]
      split
      · exact .inl rfl
      · split
        · exact .inr rfl
        · exact id
    | ethWanLinkUp =>
      simp only [linkMove,stateEthWanLinkUp]
      split
      · exact .inr rfl
      · exact id

theorem linkMove_validating_exit_iff {record : Option PortRecord} :
    linkMove record .ethValidatingLink = .exit ↔
      ∃ g, record = some g ∧ (g.upstream = false ∨ g.linkStatus = .down) := by
  constructor
  · intro hm
    have hguard := linkMove_guard record .ethValidatingLink
    rw [hm] at hguard
    simpa [LinkMove.Guard] using hguard
  · rintro ⟨g,rfl,hdown⟩
    exact if_pos hdown

theorem linkMove_wanLinkFound_iff {record : Option PortRecord} {s : EthSmState} :
    linkMove record s = .ethWanLinkFound ↔ s = .ethValidatingLink ∧
      ∃ g, record = some g ∧ g.upstream = true ∧ g.linkStatus = .up ∧ g.wanValidated = true := by
  constructor
  · intro hm
    have hguard := linkMove_guard record s
    rwa [hm] at hguard
  · rintro ⟨rfl,g,rfl,hup,hlink,hval⟩
    simp [linkMove,stateEthValidatingLink,hup,hlink,hval]

/-- Everything a step that ends idle can do: stay idle without a call, or leave
through `TransitionExit` or `Transition_EthPhyInterfaceDown`. -/
theorem linkStep_idle {b : LinkBuild} {ifname : Text} {s : EthSmState} {i : LinkInput}
    (h : (linkStep b ifname s i).1.idle) :
    (s.idle ∧ (linkStep b ifname s i).2 = []) ∨
      ((s.idle ∨ s = .ethValidatingLink ∧ linkMove i.record s = .exit) ∧
        linkStep b ifname s i = transitionExit b ifname i) ∨
      (∃ g, i.recordAgain = some g) ∧
        linkStep b ifname s i = transitionEthPhyInterfaceDown b ifname i := by
  unfold linkStep at h ⊢
  have hguard := linkMove_guard i.record s
  cases hm : linkMove i.record s with
  | goto s' =>
    rw [hm] at h hguard
    exact .inl ⟨hguard h,rfl⟩
  | ethPhyInterfaceUp =>
    rw [hm] at h
    exact absurd h not_idle_validating
  | ethWanLinkFound =>
    rw [hm] at h
    simp only [linkTransition,transitionEthWanLinkFound] at h
    cases hr : i.recordAgain with
    | none =>
      rw [hr] at h
      exact absurd h not_idle_validating
    | some g =>
      cases b with
      | wanAgent => simp [hr,EthSmState.idle] at h
      | wanManager reads =>
        simp only [hr] at h
        split at h <;> simp [transitionEthWanLinkUp,EthSmState.idle] at h
  | ethWanLinkUp =>
    rw [hm] at h
    simp [linkTransition,transitionEthWanLinkUp,EthSmState.idle] at h
  | ethPhyInterfaceDown =>
    rw [hm] at h
    cases hr : i.recordAgain with
    | none =>
      simp only [linkTransition,transitionEthPhyInterfaceDown,hr] at h
      exact absurd h not_idle_validating
    | some g => exact .inr (.inr ⟨⟨g,rfl⟩,rfl⟩)
  | exit =>
    rw [hm] at hguard
    refine .inr (.inl ⟨?_,rfl⟩)
    rcases hguard with hs | ⟨hs,-⟩
    · exact .inl (.inr hs)
    · exact .inr ⟨hs,rfl⟩

theorem setWanLinkStatus_ifname {i : LinkInput} {ifname : Text} {status : WanStatus}
    {c : LinkCall} (hc : c ∈ setWanLinkStatus i ifname status) : c.ifname = ifname := by
  unfold setWanLinkStatus at hc
  split at hc
  · rw [List.mem_singleton.mp hc]; rfl
  · exact absurd hc List.not_mem_nil

theorem setWanInterfaceName_ifname {i : LinkInput} {ifname : Text} {c : LinkCall}
    (hc : c ∈ setWanInterfaceName i ifname) : c.ifname = ifname := by
  unfold setWanInterfaceName at hc
  split at hc
  · rw [List.mem_singleton.mp hc]; rfl
  · exact absurd hc List.not_mem_nil

theorem transitionEthWanLinkUp_ifname {b : LinkBuild} {ifname : Text} {i : LinkInput}
    {c : LinkCall} (hc : c ∈ (transitionEthWanLinkUp b ifname i).2) : c.ifname = ifname := by
  cases b with
  | wanAgent => rw [List.mem_singleton.mp hc]; rfl
  | wanManager reads =>
    exact (List.mem_append.mp hc).elim setWanInterfaceName_ifname setWanLinkStatus_ifname

theorem transitionEthWanLinkFound_ifname {b : LinkBuild} {ifname : Text} {i : LinkInput}
    {c : LinkCall} (hc : c ∈ (transitionEthWanLinkFound b ifname i).2) :
    c.ifname = ifname := by
  unfold transitionEthWanLinkFound at hc
  cases hr : i.recordAgain with
  | none => rw [hr] at hc; exact absurd hc List.not_mem_nil
  | some g =>
    rw [hr] at hc
    cases b with
    | wanAgent => rw [List.mem_singleton.mp hc]; rfl
    | wanManager reads =>
      simp only at hc
      split at hc
      · rcases List.mem_cons.mp hc with rfl | hc
        · rfl
        · exact transitionEthWanLinkUp_ifname hc
      · rw [List.mem_singleton.mp hc]; rfl

theorem transitionEthPhyInterfaceDown_ifname {b : LinkBuild} {ifname : Text} {i : LinkInput}
    {c : LinkCall} (hc : c ∈ (transitionEthPhyInterfaceDown b ifname i).2) :
    c.ifname = ifname := by
  unfold transitionEthPhyInterfaceDown at hc
  cases hr : i.recordAgain with
  | none => rw [hr] at hc; exact absurd hc List.not_mem_nil
  | some g =>
    rw [hr] at hc
    cases b with
    | wanAgent =>
      rcases List.mem_cons.mp hc with rfl | hc
      · rfl
      · rw [List.mem_singleton.mp hc]; rfl
    | wanManager reads =>
      rcases List.mem_append.mp hc with hc | hc
      · rcases List.mem_cons.mp hc with rfl | hc
        · rfl
        · rw [List.mem_singleton.mp hc]; rfl
      · exact setWanLinkStatus_ifname hc

theorem linkStep_ifname {b : LinkBuild} {ifname : Text} {s : EthSmState} {i : LinkInput}
    {c : LinkCall} (hc : c ∈ (linkStep b ifname s i).2) : c.ifname = ifname := by
  unfold linkStep at hc
  cases hm : linkMove i.record s with
  | goto s' => rw [hm] at hc; exact absurd hc List.not_mem_nil
  | ethPhyInterfaceUp => rw [hm] at hc; exact absurd hc List.not_mem_nil
  | ethWanLinkFound => rw [hm] at hc; exact transitionEthWanLinkFound_ifname hc
  | ethWanLinkUp => rw [hm] at hc; exact transitionEthWanLinkUp_ifname hc
  | ethPhyInterfaceDown => rw [hm] at hc; exact transitionEthPhyInterfaceDown_ifname hc
  | exit =>
    rw [hm] at hc
    cases b with
    | wanAgent => exact absurd hc List.not_mem_nil
    | wanManager reads => exact setWanLinkStatus_ifname hc

def LinkCall.link : LinkCall → Option Bool
  | .createEthLink _ _ => some true
  | .deleteEthLink _ _ => some false
  | _ => none

def LinkCall.wanLinkStatus : LinkCall → Option WanStatus
  | .setWanLinkStatus _ status => some status
  | _ => none

theorem link_transitionExit (b : LinkBuild) (ifname : Text) (i : LinkInput)
    (calls : List LinkCall) :
    lastOf LinkCall.link (calls ++ (transitionExit b ifname i).2) =
      lastOf LinkCall.link calls := by
  rw [lastOf_append]
  cases b with
  | wanAgent => rfl
  | wanManager reads =>
    cases hd : i.statusDelivered <;>
      simp [transitionExit,setWanLinkStatus,hd,lastOf,LinkCall.link]

theorem link_transitionEthPhyInterfaceDown (b : LinkBuild) (ifname : Text) {i : LinkInput}
    (calls : List LinkCall) (h : ∃ g, i.recordAgain = some g) :
    lastOf LinkCall.link (calls ++ (transitionEthPhyInterfaceDown b ifname i).2) =
      some false := by
  obtain ⟨g,hg⟩ := h
  rw [lastOf_append]
  cases b with
  | wanAgent => simp only [transitionEthPhyInterfaceDown,hg]; rfl
  | wanManager reads =>
    cases hd : i.statusDelivered <;>
      simp only [transitionEthPhyInterfaceDown,setWanLinkStatus,hg,hd,if_true,if_false,
        Bool.false_eq_true] <;> rfl

abbrev LinkState : Type := EthSmState × List LinkCall

/-- In `STATE_EXIT` no link that was created is left enabled. -/
def NoLeakedLink (p : LinkState) : Prop :=
  p.1 = .exit → lastOf LinkCall.link p.2 ≠ some true

/-- Link validation is not left for `STATE_EXIT` while a link is enabled. -/
def ExitsWithoutLink (p : LinkState) (i : LinkInput) : Prop :=
  p.1 = .ethValidatingLink →
    ∀ g, i.record = some g → g.upstream = false ∨ g.linkStatus = .down →
      lastOf LinkCall.link p.2 ≠ some true

def IdleWithoutLink (p : LinkState) : Prop :=
  p.1.idle → lastOf LinkCall.link p.2 ≠ some true

theorem idleWithoutLink_step {b : LinkBuild} {ifname : Text} {p : LinkState} {i : LinkInput}
    (h : IdleWithoutLink p) (hc : ExitsWithoutLink p i) :
    IdleWithoutLink (logged (linkStep b ifname) p i) := by
  intro hidle
  rcases linkStep_idle hidle with ⟨hs,hno⟩ | ⟨hs,heq⟩ | ⟨hr,heq⟩
  · simpa only [logged,hno,List.append_nil] using h hs
  · simp only [logged,heq,link_transitionExit]
    rcases hs with hs | ⟨hs,hm⟩
    · exact h hs
    · rw [hs,linkMove_validating_exit_iff] at hm
      obtain ⟨g,hg,hdown⟩ := hm
      exact hc hs g hg hdown
  · simp [logged,heq,link_transitionEthPhyInterfaceDown b ifname p.2 hr]

theorem exitsWithoutLink_of_noLeakedLink {b : LinkBuild} {ifname : Text} {p : LinkState}
    {i : LinkInput} (h : NoLeakedLink (logged (linkStep b ifname) p i)) :
    ExitsWithoutLink p i := by
  intro hs g hg hdown
  have hm := linkMove_validating_exit_iff.mpr ⟨g,hg,hdown⟩
  have hstep : linkStep b ifname p.1 i = transitionExit b ifname i := by
    rw [linkStep,hs,hm]; rfl
  simpa only [NoLeakedLink,logged,hstep,link_transitionExit] using
    h (by simp [logged,hstep,transitionExit])

/-- Along every run the machine leaves no link behind exactly as long as it does
not give up link validation while its link is enabled. -/
theorem no_leaked_link_iff (b : LinkBuild) (ifname : Text) (inputs : List LinkInput) :
    Always (logged (linkStep b ifname)) NoLeakedLink (.exit,[]) inputs ↔
      Meets (logged (linkStep b ifname)) ExitsWithoutLink (.exit,[]) inputs :=
  always_iff_meets (J := IdleWithoutLink) (fun _ => by simp [lastOf])
    (fun _ _ h hc => idleWithoutLink_step h hc) (fun _ h hs => h (.inl hs))
    (fun _ _ _ hafter => exitsWithoutLink_of_noLeakedLink hafter)

instance (p : LinkState) : Decidable (NoLeakedLink p) := inferInstanceAs (Decidable (_ → _))

/-- A validated port in some state, and a step that finds its record unchanged. -/
def wanPort (upstream : Bool) (linkStatus : LinkStatus) (wanStatus : WanStatus) : PortRecord :=
  ⟨upstream,(Chars.cleared 64).snprintf "eth0".toList,false,linkStatus,wanStatus,true,
    Chars.cleared 128,Chars.cleared 128⟩

def steady (record : Option PortRecord) : LinkInput := ⟨record,record,none,true,true⟩

/-- The lookup fails once while the VLAN is configured, and then Upstream is
cleared. -/
theorem failed_lookup_leaks_link :
    ¬ NoLeakedLink (linkRun (.wanManager false) "eth0".toList
      [steady (some (wanPort true .up .down)),steady (some (wanPort true .up .down)),
        steady (some (wanPort true .up .down)),steady none,
        steady (some (wanPort false .up .down))]) := by
  decide +kernel

/-- An idle machine did not announce its interface as up. -/
def IdleAnnouncedDown (p : LinkState) : Prop :=
  p.1.idle → lastOf LinkCall.wanLinkStatus p.2 ≠ some .up

theorem idleAnnouncedDown_step {reads : Bool} {ifname : Text} {p : LinkState} {i : LinkInput}
    (h : IdleAnnouncedDown p) (hd : i.statusDelivered = true) :
    IdleAnnouncedDown (logged (linkStep (.wanManager reads) ifname) p i) := by
  intro hidle
  rcases linkStep_idle hidle with ⟨hs,hno⟩ | ⟨-,heq⟩ | ⟨⟨g,hg⟩,heq⟩
  · simpa only [logged,hno,List.append_nil] using h hs
  · have hdown : lastOf LinkCall.wanLinkStatus
        (transitionExit (.wanManager reads) ifname i).2 = some .down := by
      simp only [transitionExit,setWanLinkStatus,hd,if_true]; rfl
    simp [logged,heq,lastOf_append,hdown]
  · have hdown : lastOf LinkCall.wanLinkStatus
        (transitionEthPhyInterfaceDown (.wanManager reads) ifname i).2 = some .down := by
      simp only [transitionEthPhyInterfaceDown,setWanLinkStatus,hg,hd,if_true]; rfl
    simp [logged,heq,lastOf_append,hdown]

/-- With every notification delivered, whatever the records and the lookups. -/
theorem idle_announced_down (reads : Bool) (ifname : Text) (inputs : List LinkInput)
    (hd : ∀ i ∈ inputs, i.statusDelivered = true) :
    Always (logged (linkStep (.wanManager reads) ifname)) IdleAnnouncedDown (.exit,[])
      inputs :=
  always_of_meets (J := IdleAnnouncedDown) (C := fun _ i => i.statusDelivered = true)
    (fun _ => by simp [lastOf]) (fun _ _ h hc => idleAnnouncedDown_step h hc)
    (fun _ h => h) (meets_of_mem hd)

theorem idle_announced_down_lookup_fails :
    Always (logged (linkStep (.wanManager true) "eth0".toList)) IdleAnnouncedDown (.exit,[])
      [steady (some (wanPort true .up .up)),steady (some (wanPort true .up .up)),steady none,
        steady (some (wanPort false .up .up))] :=
  idle_announced_down true _ _ (by simp [steady])

end EthAgent
