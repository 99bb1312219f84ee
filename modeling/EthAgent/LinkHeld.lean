import EthAgent.LinkOwner
import EthAgent.Lib.Presence

/-!
The VLAN links that the link state machine owns. Over a run of the agent its calls
create and delete links; they stay in step with its state until it takes a way around
a creation, loses its port while it holds a link, or is started for another interface.
-/

set_option autoImplicit false

namespace EthAgent
open CString Packed Runs Presence

def LinkCall.linkEntry : LinkCall → Option (Text × Bool)
  | .createEthLink ifname _ => some (ifname,true)
  | .deleteEthLink ifname _ => some (ifname,false)
  | _ => none

def linkLog (calls : List LinkCall) : List (Text × Bool) := calls.filterMap LinkCall.linkEntry

/-- The states that follow `Transition_EthWanLinkFound`. -/
def EthSmState.HasLink (s : EthSmState) : Prop := s = .ethVlanConfiguring ∨ s = .ethWanLinkUp

instance (s : EthSmState) : Decidable s.HasLink := inferInstanceAs (Decidable (_ ∨ _))

/-- Of every interface, links are created and deleted in turn, and the links that exist
are those of the state of the machine. -/
def LinksTracked (p : LinkAgent × List LinkCall) : Prop :=
  Tracks (linkLog p.2) (p.1.control.owner EthSmState.HasLink)

/-- The machine does not find a port up before it has a link for it, does not read
erouter0 where a link was found, and does not lose its port while it has one. -/
def LinkInput.KeepsLink (reads : Bool) (i : LinkInput) : EthSmState → Prop
  | .exit => True
  | .ethDisconnected => ∀ g, i.record = some g → g.upstream = true → g.linkStatus = .up →
      g.wanStatus = .down
  | .ethValidatingLink => ∀ g, i.record = some g → g.upstream = true → g.linkStatus = .up →
      g.wanValidated = true → ¬ (reads = true ∧ i.wanPhysicalIfname = some "erouter0".toList)
  | .ethVlanConfiguring => i.record ≠ none
  | .ethWanLinkUp => i.record ≠ none

/-- And no start request takes the machine from the interface whose link it has. -/
def KeepsLinks (reads : Bool) (p : LinkAgent × List LinkCall) : LinkEvent → Prop
  | .machine answers => p.1.control.thread = .looping →
      (p.1.input answers).KeepsLink reads p.1.control.geCurrentState
  | ev => OwnerKept EthSmState.HasLink p.1 ev

section Step

variable {reads : Bool} {ifname : Text} {s : EthSmState} {i : LinkInput}

@[simp] theorem linkLog_append (calls calls' : List LinkCall) :
    linkLog (calls ++ calls') = linkLog calls ++ linkLog calls' := List.filterMap_append

@[simp] theorem linkLog_setWanLinkStatus (status : WanStatus) :
    linkLog (setWanLinkStatus i ifname status) = [] := by
  unfold setWanLinkStatus
  split <;> rfl

@[simp] theorem linkLog_setWanInterfaceName : linkLog (setWanInterfaceName i ifname) = [] := by
  unfold setWanInterfaceName
  split <;> rfl

theorem linkLog_wanLinkUp (b : LinkBuild) : linkLog (transitionEthWanLinkUp b ifname i).2 = [] := by
  cases b with
  | wanAgent => rfl
  | wanManager reads => simp [transitionEthWanLinkUp]

theorem linkLog_phyInterfaceDown {g : PortRecord} (h : i.recordAgain = some g) :
    linkLog (transitionEthPhyInterfaceDown (.wanManager reads) ifname i).2 = [(ifname,false)] := by
  simp only [transitionEthPhyInterfaceDown,h,linkLog_append,linkLog_setWanLinkStatus]
  rfl

/-- What one iteration does to the link of its interface: where the condition holds it
creates or deletes the link as the state changes, and elsewhere the state changes without
the link. -/
def StepTracks (reads : Bool) (ifname : Text) (i : LinkInput) (s : EthSmState) : Prop :=
  (i.KeepsLink reads s ∧
    linkLog (linkStep (.wanManager reads) ifname s i).2 =
      if (linkStep (.wanManager reads) ifname s i).1.HasLink ↔ s.HasLink then []
      else [(ifname,decide (linkStep (.wanManager reads) ifname s i).1.HasLink)]) ∨
  (¬ i.KeepsLink reads s ∧ linkLog (linkStep (.wanManager reads) ifname s i).2 = [] ∧
    ((linkStep (.wanManager reads) ifname s i).1.HasLink ↔ ¬ s.HasLink))

theorem stepTracks_exit : StepTracks reads ifname i .exit := by
  refine .inl ⟨trivial,?_⟩
  cases hr : i.record with
  | none => simp [linkStep,hr,linkMove,stateExit,linkTransition,linkLog]
  | some g =>
    cases hu : g.upstream <;>
      simp [linkStep,hr,linkMove,stateExit,hu,linkTransition,linkLog,EthSmState.HasLink]

theorem stepTracks_ethDisconnected : StepTracks reads ifname i .ethDisconnected := by
  cases hr : i.record with
  | none =>
    exact .inl ⟨fun g hg => absurd (hr.symm.trans hg) (by simp),
      by simp [linkStep,hr,linkMove,stateEthDisconnected,linkTransition,linkLog]⟩
  | some g =>
    have hkeeps : (g.upstream = true → g.linkStatus = .up → g.wanStatus = .down) →
        i.KeepsLink reads .ethDisconnected := by
      intro h g' hg'
      rwa [← Option.some_inj.mp (hr.symm.trans hg')]
    cases hu : g.upstream with
    | false =>
      refine .inl ⟨hkeeps fun hup => absurd (hu.symm.trans hup) Bool.false_ne_true,?_⟩
      simp [linkStep,hr,linkMove,stateEthDisconnected,hu,linkTransition,transitionExit,
        EthSmState.HasLink]
    | true =>
      cases hl : g.linkStatus with
      | down =>
        refine .inl ⟨hkeeps fun _ hup => absurd (hl.symm.trans hup) (by simp),?_⟩
        simp [linkStep,hr,linkMove,stateEthDisconnected,hu,hl,linkTransition,linkLog]
      | up =>
        cases hw : g.wanStatus with
        | down =>
          refine .inl ⟨hkeeps fun _ _ => hw,?_⟩
          simp [linkStep,hr,linkMove,stateEthDisconnected,hu,hl,hw,linkTransition,linkLog,
            EthSmState.HasLink]
        | up =>
          refine .inr ⟨fun h => absurd (hw.symm.trans (h g hr hu hl)) (by simp),?_⟩
          have hstep : linkStep (.wanManager reads) ifname .ethDisconnected i =
              transitionEthWanLinkUp (.wanManager reads) ifname i := by
            simp [linkStep,hr,linkMove,stateEthDisconnected,hu,hl,hw,linkTransition]
          rw [hstep,linkLog_wanLinkUp]
          simp [transitionEthWanLinkUp,EthSmState.HasLink]

theorem stepTracks_wanLinkFound (hagain : i.recordAgain = i.record)
    (hfound : linkMove i.record .ethValidatingLink = .ethWanLinkFound) :
    StepTracks reads ifname i .ethValidatingLink := by
  obtain ⟨-,g,hg,hu,hl,hv⟩ := linkMove_wanLinkFound_iff.mp hfound
  by_cases herouter : reads = true ∧ i.wanPhysicalIfname = some "erouter0".toList
  · have hstep : linkStep (.wanManager reads) ifname .ethValidatingLink i =
        (.ethWanLinkUp,.setPortWanStatus ifname .up ::
          (transitionEthWanLinkUp (.wanManager reads) ifname i).2) := by
      rw [linkStep,hfound,linkTransition,transitionEthWanLinkFound,hagain,hg]
      exact if_pos herouter
    refine .inr ⟨fun h => h g hg hu hl hv herouter,?_⟩
    rw [hstep]
    exact ⟨linkLog_wanLinkUp _,by simp [EthSmState.HasLink]⟩
  · have hstep : linkStep (.wanManager reads) ifname .ethValidatingLink i =
        (.ethVlanConfiguring,[.createEthLink ifname g.lowerLayers.text]) := by
      rw [linkStep,hfound,linkTransition,transitionEthWanLinkFound,hagain,hg]
      exact if_neg herouter
    refine .inl ⟨fun _ _ _ _ _ => herouter,?_⟩
    rw [hstep]
    simp [linkLog,LinkCall.linkEntry,EthSmState.HasLink]

theorem stepTracks_ethValidatingLink (hagain : i.recordAgain = i.record) :
    StepTracks reads ifname i .ethValidatingLink := by
  by_cases hfound : linkMove i.record .ethValidatingLink = .ethWanLinkFound
  · exact stepTracks_wanLinkFound hagain hfound
  · refine .inl ⟨fun g hg hu hl hv => absurd
      (linkMove_wanLinkFound_iff.mpr ⟨rfl,g,hg,hu,hl,hv⟩) hfound,?_⟩
    cases hr : i.record with
    | none => simp [linkStep,hr,linkMove,stateEthValidatingLink,linkTransition,linkLog]
    | some g =>
      by_cases hdown : g.upstream = false ∨ g.linkStatus = .down
      · rw [linkStep,linkMove_validating_exit_iff.mpr ⟨g,hr,hdown⟩]
        simp [linkTransition,transitionExit,EthSmState.HasLink]
      · have hv : g.wanValidated = false := by
          rw [Bool.eq_false_iff]
          intro hv
          exact hfound (by simp [hr,linkMove,stateEthValidatingLink,hdown,hv])
        simp [linkStep,hr,linkMove,stateEthValidatingLink,hdown,hv,linkTransition,linkLog]

theorem stepTracks_phyInterfaceDown {g : PortRecord} (hs : s.HasLink)
    (hkeeps : i.KeepsLink reads s) (hagain : i.recordAgain = some g)
    (hdown : linkMove i.record s = .ethPhyInterfaceDown) : StepTracks reads ifname i s := by
  have hstep : linkStep (.wanManager reads) ifname s i =
      transitionEthPhyInterfaceDown (.wanManager reads) ifname i := by rw [linkStep,hdown]; rfl
  have hexit : (transitionEthPhyInterfaceDown (.wanManager reads) ifname i).1 = .exit := by
    rw [transitionEthPhyInterfaceDown,hagain]
  have hnone : ¬ EthSmState.exit.HasLink := by simp [EthSmState.HasLink]
  refine .inl ⟨hkeeps,?_⟩
  rw [hstep,linkLog_phyInterfaceDown hagain,hexit,if_neg fun h => hnone (h.mpr hs),
    decide_eq_false hnone]

theorem stepTracks_ethVlanConfiguring (hagain : i.recordAgain = i.record) :
    StepTracks reads ifname i .ethVlanConfiguring := by
  cases hr : i.record with
  | none =>
    refine .inr ⟨fun h => h hr,?_⟩
    simp [linkStep,hr,linkMove,stateEthVLANConfiguring,linkTransition,linkLog,EthSmState.HasLink]
  | some g =>
    have hkeeps : i.KeepsLink reads .ethVlanConfiguring := by simp [LinkInput.KeepsLink,hr]
    by_cases hdown : g.upstream = false ∨ g.linkStatus = .down
    · exact stepTracks_phyInterfaceDown (.inl rfl) hkeeps (hagain.trans hr)
        (by simp [hr,linkMove,stateEthVLANConfiguring,hdown])
    · refine .inl ⟨hkeeps,?_⟩
      cases hw : g.wanStatus with
      | down =>
        simp [linkStep,hr,linkMove,stateEthVLANConfiguring,hdown,hw,linkTransition,linkLog]
      | up =>
        have hstep : linkStep (.wanManager reads) ifname .ethVlanConfiguring i =
            transitionEthWanLinkUp (.wanManager reads) ifname i := by
          simp [linkStep,hr,linkMove,stateEthVLANConfiguring,hdown,hw,linkTransition]
        rw [hstep,linkLog_wanLinkUp]
        simp [transitionEthWanLinkUp,EthSmState.HasLink]

theorem stepTracks_ethWanLinkUp (hagain : i.recordAgain = i.record) :
    StepTracks reads ifname i .ethWanLinkUp := by
  cases hr : i.record with
  | none =>
    refine .inr ⟨fun h => h hr,?_⟩
    simp [linkStep,hr,linkMove,stateEthWanLinkUp,linkTransition,linkLog,EthSmState.HasLink]
  | some g =>
    have hkeeps : i.KeepsLink reads .ethWanLinkUp := by simp [LinkInput.KeepsLink,hr]
    by_cases hdown : g.upstream = false ∨ g.wanStatus = .down ∨ g.linkStatus = .down
    · exact stepTracks_phyInterfaceDown (.inr rfl) hkeeps (hagain.trans hr)
        (by simp [hr,linkMove,stateEthWanLinkUp,hdown])
    · refine .inl ⟨hkeeps,?_⟩
      simp [linkStep,hr,linkMove,stateEthWanLinkUp,hdown,linkTransition,linkLog]

theorem stepTracks (reads : Bool) (ifname : Text) (s : EthSmState)
    (hagain : i.recordAgain = i.record) :
    StepTracks reads ifname i s := by
  cases s with
  | exit => exact stepTracks_exit
  | ethDisconnected => exact stepTracks_ethDisconnected
  | ethValidatingLink => exact stepTracks_ethValidatingLink hagain
  | ethVlanConfiguring => exact stepTracks_ethVlanConfiguring hagain
  | ethWanLinkUp => exact stepTracks_ethWanLinkUp hagain

end Step

theorem beyond_hasLink : Beyond EthSmState.HasLink :=
  ⟨by simp [EthSmState.HasLink],by simp [EthSmState.HasLink]⟩

section Machine

variable {reads : Bool} {a : LinkAgent} {answers : MachineAnswers}

theorem keepsLink_nameless {i : LinkInput} {s : EthSmState} (hr : i.record = none)
    (hs : ¬ s.HasLink) : i.KeepsLink reads s := by
  have hno : ∀ g, i.record ≠ some g := fun g hg => absurd (hr.symm.trans hg) nofun
  cases s with
  | exit => exact trivial
  | ethDisconnected => exact fun g hg => absurd hg (hno g)
  | ethValidatingLink => exact fun g hg => absurd hg (hno g)
  | ethVlanConfiguring => exact absurd (.inl rfl) hs
  | ethWanLinkUp => exact absurd (.inr rfl) hs

theorem tracks_machineStep_iff {calls : List LinkCall} (h : a.control.Sound EthSmState.HasLink)
    (htracks : Tracks (linkLog calls) (a.control.owner EthSmState.HasLink)) :
    Tracks (linkLog (calls ++ (machineStep reads a answers).2))
        ((machineStep reads a answers).1.control.owner EthSmState.HasLink) ↔
      (a.control.thread = .looping →
        (a.input answers).KeepsLink reads a.control.geCurrentState) := by
  rw [linkLog_append]
  by_cases ht : a.control.thread = .looping
  · obtain ⟨hcontrol,hcalls⟩ := machineStep_looping reads answers ht
    rw [hcalls]
    simp only [ht,forall_const]
    cases hp : a.control.pstInfo with
    | none =>
      have hrecord : (a.input answers).record = none := record_of_no_name a hp
      have hs := h.named ht hp
      have hnext : ¬ (machineStep reads a answers).1.control.geCurrentState.HasLink := by
        rw [hcontrol]
        exact linkStep_nameless beyond_hasLink _ _ hrecord hs
      rw [owner_of_not hs] at htracks
      rw [linkStep_no_record hrecord,owner_of_not hnext]
      simpa [linkLog] using ⟨fun _ => keepsLink_nameless hrecord hs,fun _ => htracks⟩
    | some name =>
      rw [owner_of_looping ht hp] at htracks
      rw [owner_of_looping (by rw [hcontrol]; exact ht) (by rw [hcontrol]; exact hp),hcontrol,hp]
      have hstep : StepTracks reads name.text (a.input answers) a.control.geCurrentState :=
        stepTracks reads name.text _ rfl
      rcases hstep with ⟨hkeeps,hlog⟩ | ⟨hkeeps,hlog,hflip⟩
      · simp only [Option.elim_some,hlog,hkeeps,iff_true]
        exact htracks.switch
      · simp only [Option.elim_some,hlog,hkeeps,iff_false,List.append_nil]
        exact htracks.missed_switch hflip
  · obtain ⟨hheld,hcalls⟩ := machineStep_not_looping beyond_hasLink reads answers ht
    rw [owner_of_not_looping ht] at htracks
    rw [hheld,hcalls]
    simpa [linkLog,ht] using htracks

end Machine

section Agent

variable {p : Platform} {reads : Bool} {q : LinkAgent × List LinkCall} {ev : LinkEvent}

theorem keepsLinks_iff (hev : ∀ answers, ev ≠ .machine answers) :
    KeepsLinks reads q ev ↔ OwnerKept EthSmState.HasLink q.1 ev := by
  cases ev with
  | machine answers => exact absurd rfl (hev answers)
  | _ => exact Iff.rfl

theorem linksTracked_agentStep_iff (h : q.1.control.Sound EthSmState.HasLink)
    (htracks : LinksTracked q) :
    LinksTracked (logged (agentStep p reads) q ev) ↔ KeepsLinks reads q ev := by
  by_cases hev : ∃ answers, ev = .machine answers
  · obtain ⟨answers,rfl⟩ := hev
    exact tracks_machineStep_iff h htracks
  · rw [not_exists] at hev
    have howner := owner_agentStep_eq_iff p reads h hev
    rw [keepsLinks_iff hev,← howner.2,LinksTracked,howner.1]
    -- no call is made, so the log tracks what it did
    exact ⟨fun h' => h'.unique htracks,fun heq => heq ▸ htracks⟩

end Agent

/-- Along every run of the agent, of each interface links are created and deleted in turn
and exist while the machine is in the states behind their creation, exactly as long as
every step meets its condition. -/
theorem links_tracked_iff (p : Platform) (reads : Bool) (e : Ethernet)
    (events : List LinkEvent) :
    Always (logged (agentStep p reads)) LinksTracked (⟨e,linkControlInit⟩,[]) events ↔
      Meets (logged (agentStep p reads)) (KeepsLinks reads) (⟨e,linkControlInit⟩,[]) events := by
  have hinit : LinksTracked (⟨e,linkControlInit⟩,[]) := by
    rw [LinksTracked,owner_of_not_looping (by simp [linkControlInit])]
    exact Tracks.nil
  exact always_iff_meets
    (J := fun q => q.1.control.Sound EthSmState.HasLink ∧ LinksTracked q)
    ⟨sound_init _,hinit⟩
    (fun q ev h hkeeps => ⟨h.1.agentStep beyond_hasLink fun hev => (keepsLinks_iff hev).mp hkeeps,
      (linksTracked_agentStep_iff h.1 h.2).mpr hkeeps⟩)
    (fun q h => h.2) (fun q ev h htracked => (linksTracked_agentStep_iff h.1 h.2).mp htracked)

end EthAgent
