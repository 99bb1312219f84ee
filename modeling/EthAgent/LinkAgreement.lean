import EthAgent.LinkOwner

/-!
What the WAN manager was told about the interfaces, and what the port table says. The
announcements stay in step with `STATE_WAN_LINK_UP` as long as every step into that state
or out of it finds its port and reaches the WAN manager. Once nothing else happens they
agree with the port table.
-/

set_option autoImplicit false

namespace EthAgent
open CString Packed Runs Settling

/-- The interfaces that were announced as up, and not as down since. -/
def announcedUp (calls : List LinkCall) : Set Text := {x | lastOf (linkStatusOf x) calls = some .up}

/-- They are those for which the machine is in `STATE_WAN_LINK_UP`. -/
def AnnouncedAsOwned (q : LinkAgent × List LinkCall) : Prop :=
  announcedUp q.2 = q.1.control.owner (· = .ethWanLinkUp)

/-- A step into `STATE_WAN_LINK_UP` or out of it finds the port, and the WAN manager has an
entry for it. -/
def LinkInput.Reports (reads : Bool) (ifname : Text) (i : LinkInput) (s : EthSmState) : Prop :=
  ((linkStep (.wanManager reads) ifname s i).1 = .ethWanLinkUp ↔ s = .ethWanLinkUp) ∨
    i.record ≠ none ∧ i.statusDelivered = true

instance (reads : Bool) (ifname : Text) (i : LinkInput) (s : EthSmState) :
    Decidable (i.Reports reads ifname s) := inferInstanceAs (Decidable (_ ∨ _))

/-- And no start request takes the machine from an interface that is up. -/
def ReportsLinks (reads : Bool) (q : LinkAgent × List LinkCall) : LinkEvent → Prop
  | .machine answers => q.1.control.thread = .looping →
      (q.1.input answers).Reports reads (q.1.control.pstInfo.elim [] Buf.text)
        q.1.control.geCurrentState
  | ev => OwnerKept (· = .ethWanLinkUp) q.1 ev

section Step

variable {reads : Bool} {ifname : Text} {s : EthSmState} {i : LinkInput} {g : PortRecord}

theorem linkStatusOf_setWanLinkStatus (status : WanStatus) :
    lastOf (linkStatusOf ifname) (setWanLinkStatus i ifname status) =
      if i.statusDelivered then some status else none := by
  unfold setWanLinkStatus
  split <;> simp [lastOf,linkStatusOf]

theorem linkStatusOf_wanLinkUp :
    lastOf (linkStatusOf ifname) (transitionEthWanLinkUp (.wanManager reads) ifname i).2 =
      if i.statusDelivered then some .up else none := by
  have hname : lastOf (linkStatusOf ifname) (setWanInterfaceName i ifname) = none := by
    unfold setWanInterfaceName
    split <;> rfl
  simp only [transitionEthWanLinkUp]
  rw [lastOf_append,linkStatusOf_setWanLinkStatus,hname,Option.or_none]

theorem linkStatusOf_phyInterfaceDown (h : i.recordAgain = some g) :
    lastOf (linkStatusOf ifname) (transitionEthPhyInterfaceDown (.wanManager reads) ifname i).2 =
      if i.statusDelivered then some .down else none := by
  simp only [transitionEthPhyInterfaceDown,h]
  rw [lastOf_append,linkStatusOf_setWanLinkStatus]
  exact Option.or_none

theorem linkStatusOf_other {x : Text} (hx : x ≠ ifname) :
    lastOf (linkStatusOf x) (linkStep (.wanManager reads) ifname s i).2 = none := by
  have hnone : (linkStep (.wanManager reads) ifname s i).2.filterMap (linkStatusOf x) = [] := by
    refine List.filterMap_eq_nil_iff.mpr fun c hc => ?_
    have hname := linkStep_ifname hc
    cases c with
    | setWanLinkStatus name status => exact if_neg fun heq => hx (heq.symm.trans hname)
    | _ => rfl
  rw [lastOf,hnone]
  rfl

/-- Only `STATE_WAN_LINK_UP` itself goes to it without a transition, and it is left without
one where the port is not found. -/
theorem linkMove_goto {record : Option PortRecord} {s' : EthSmState}
    (hm : linkMove record s = .goto s') :
    (s' = .ethWanLinkUp → s = .ethWanLinkUp) ∧
      (s = .ethWanLinkUp → s' ≠ .ethWanLinkUp → record = none) := by
  cases record with
  | none =>
    refine ⟨fun hs' => ?_,fun _ _ => rfl⟩
    rw [hs'] at hm
    cases s <;> simp [linkMove,stateExit,stateEthDisconnected,stateEthValidatingLink,
      stateEthVLANConfiguring,stateEthWanLinkUp] at hm
  | some g =>
    cases s with
    | exit =>
      simp only [linkMove,stateExit] at hm
      split at hm <;> cases hm <;> simp
    | ethDisconnected =>
      simp only [linkMove,stateEthDisconnected] at hm
      split_ifs at hm
      cases hm
      simp
    | ethValidatingLink =>
      simp only [linkMove,stateEthValidatingLink] at hm
      split_ifs at hm
      cases hm
      simp
    | ethVlanConfiguring =>
      simp only [linkMove,stateEthVLANConfiguring] at hm
      split_ifs at hm
      cases hm
      simp
    | ethWanLinkUp =>
      simp only [linkMove,stateEthWanLinkUp] at hm
      split_ifs at hm
      cases hm
      simp

/-- What one step says of its interface: where the condition holds the WAN manager goes on
to know whether it is in `STATE_WAN_LINK_UP`, and elsewhere it is not told of a change. -/
def StepAnnounces (reads : Bool) (ifname : Text) (i : LinkInput) (s : EthSmState) : Prop :=
  let said := lastOf (linkStatusOf ifname) (linkStep (.wanManager reads) ifname s i).2
  (i.Reports reads ifname s ∧
    ∀ before, (before = some .up ↔ s = .ethWanLinkUp) →
      (said.or before = some .up ↔
        (linkStep (.wanManager reads) ifname s i).1 = .ethWanLinkUp)) ∨
  (¬ i.Reports reads ifname s ∧ said = none)

/-- A step that neither enters nor leaves the state, and does not say up. -/
theorem stepAnnounces_of_same
    (hsame : (linkStep (.wanManager reads) ifname s i).1 = .ethWanLinkUp ↔ s = .ethWanLinkUp)
    (hsaid : lastOf (linkStatusOf ifname) (linkStep (.wanManager reads) ifname s i).2 = none ∨
      s ≠ .ethWanLinkUp ∧
        lastOf (linkStatusOf ifname) (linkStep (.wanManager reads) ifname s i).2 = some .down) :
    StepAnnounces reads ifname i s := by
  refine .inl ⟨.inl hsame,fun before hbefore => ?_⟩
  rcases hsaid with hnone | ⟨hs,hdown⟩
  · rw [hnone,Option.none_or,hbefore,hsame]
  · rw [hdown,hsame]
    exact iff_of_false (by simp) hs

/-- A step that enters or leaves the state, and says so if the WAN manager can be reached. -/
theorem stepAnnounces_of_crossing
    (hcross : (linkStep (.wanManager reads) ifname s i).1 = .ethWanLinkUp ↔ s ≠ .ethWanLinkUp)
    (hrecord : i.record ≠ none)
    (hsaid : lastOf (linkStatusOf ifname) (linkStep (.wanManager reads) ifname s i).2 =
      if i.statusDelivered then some (if s = .ethWanLinkUp then .down else .up) else none) :
    StepAnnounces reads ifname i s := by
  cases hd : i.statusDelivered with
  | true =>
    refine .inl ⟨.inr ⟨hrecord,hd⟩,fun before _ => ?_⟩
    rw [hsaid,hd,hcross]
    by_cases hs : s = .ethWanLinkUp <;> simp [hs]
  | false =>
    refine .inr ⟨fun hreports => ?_,by rw [hsaid,hd]; rfl⟩
    rcases hreports with hsame | ⟨-,hdelivered⟩
    · exact not_iff_self (hcross.symm.trans hsame)
    · exact Bool.false_ne_true (hd.symm.trans hdelivered)

theorem stepAnnounces_wanLinkUp (hm : linkMove i.record s = .ethWanLinkUp) :
    StepAnnounces reads ifname i s := by
  have hstep : linkStep (.wanManager reads) ifname s i =
      transitionEthWanLinkUp (.wanManager reads) ifname i := by
    rw [linkStep,hm]
    rfl
  have hguard := linkMove_guard i.record s
  rw [hm] at hguard
  have hs : s ≠ .ethWanLinkUp := by
    rcases hguard with rfl | rfl <;> simp
  have hrecord : i.record ≠ none := by
    intro hr
    rw [hr] at hm
    cases s <;> simp [linkMove,stateExit,stateEthDisconnected,stateEthValidatingLink,
      stateEthVLANConfiguring,stateEthWanLinkUp] at hm
  refine stepAnnounces_of_crossing ?_ hrecord ?_
  · rw [hstep]
    exact ⟨fun _ => hs,fun _ => rfl⟩
  · rw [hstep,linkStatusOf_wanLinkUp,if_neg hs]

theorem stepAnnounces_wanLinkFound (hagain : i.recordAgain = i.record)
    (hm : linkMove i.record s = .ethWanLinkFound) : StepAnnounces reads ifname i s := by
  have hstep : linkStep (.wanManager reads) ifname s i =
      transitionEthWanLinkFound (.wanManager reads) ifname i := by
    rw [linkStep,hm]
    rfl
  obtain ⟨rfl,g,hrecord,-⟩ := linkMove_wanLinkFound_iff.mp hm
  rw [hrecord] at hagain
  have hs : EthSmState.ethValidatingLink ≠ .ethWanLinkUp := by simp
  by_cases hread : reads = true ∧ i.wanPhysicalIfname = some "erouter0".toList
  · have hup : linkStep (.wanManager reads) ifname .ethValidatingLink i =
        (.ethWanLinkUp,.setPortWanStatus ifname .up ::
          (transitionEthWanLinkUp (.wanManager reads) ifname i).2) := by
      rw [hstep]
      simp only [transitionEthWanLinkFound,hagain]
      exact if_pos hread
    refine stepAnnounces_of_crossing ?_ (by simp [hrecord]) ?_
    · rw [hup]
      exact ⟨fun _ => hs,fun _ => rfl⟩
    · rw [hup,if_neg hs]
      exact linkStatusOf_wanLinkUp
  · have hfound : linkStep (.wanManager reads) ifname .ethValidatingLink i =
        (.ethVlanConfiguring,[.createEthLink ifname g.lowerLayers.text]) := by
      rw [hstep]
      simp only [transitionEthWanLinkFound,hagain]
      exact if_neg hread
    refine stepAnnounces_of_same ?_ ?_
    · rw [hfound]
      exact iff_of_false (by simp) hs
    · rw [hfound]
      exact .inl rfl

theorem stepAnnounces_phyInterfaceDown (hagain : i.recordAgain = i.record)
    (hm : linkMove i.record s = .ethPhyInterfaceDown) : StepAnnounces reads ifname i s := by
  have hstep : linkStep (.wanManager reads) ifname s i =
      transitionEthPhyInterfaceDown (.wanManager reads) ifname i := by
    rw [linkStep,hm]
    rfl
  cases hrecord : i.record with
  | none =>
    rw [hrecord] at hm
    cases s <;> simp [linkMove,stateExit,stateEthDisconnected,stateEthValidatingLink,
      stateEthVLANConfiguring,stateEthWanLinkUp] at hm
  | some g =>
    have hnext : (linkStep (.wanManager reads) ifname s i).1 = .exit := by
      rw [hstep]
      simp [transitionEthPhyInterfaceDown,hagain,hrecord]
    have hsaid : lastOf (linkStatusOf ifname) (linkStep (.wanManager reads) ifname s i).2 =
        if i.statusDelivered then some .down else none := by
      rw [hstep]
      exact linkStatusOf_phyInterfaceDown (hagain.trans hrecord)
    by_cases hs : s = .ethWanLinkUp
    · refine stepAnnounces_of_crossing ?_ (by simp [hrecord]) ?_
      · rw [hnext]
        exact iff_of_false (by simp) (not_not.mpr hs)
      · rw [hsaid,if_pos hs]
    · refine stepAnnounces_of_same ?_ ?_
      · rw [hnext]
        exact iff_of_false (by simp) hs
      · rw [hsaid]
        cases i.statusDelivered with
        | true => exact .inr ⟨hs,rfl⟩
        | false => exact .inl rfl

theorem stepAnnounces (reads : Bool) (ifname : Text) (s : EthSmState)
    (hagain : i.recordAgain = i.record) :
    StepAnnounces reads ifname i s := by
  cases hm : linkMove i.record s with
  | goto s' =>
    obtain ⟨henters,hleaves⟩ := linkMove_goto hm
    have hstep : linkStep (.wanManager reads) ifname s i = (s',[]) := by
      rw [linkStep,hm]
      rfl
    by_cases hlost : s = .ethWanLinkUp ∧ s' ≠ .ethWanLinkUp
    · -- the port is not found, and the state is left without a call
      refine .inr ⟨fun hreports => ?_,by rw [hstep]; rfl⟩
      rcases hreports with hsame | ⟨hrecord,-⟩
      · rw [hstep] at hsame
        exact hlost.2 (hsame.mpr hlost.1)
      · exact hrecord (hleaves hlost.1 hlost.2)
    · refine stepAnnounces_of_same ?_ (by rw [hstep]; exact .inl rfl)
      rw [hstep]
      exact ⟨henters,fun hs => not_not.mp fun hs' => hlost ⟨hs,hs'⟩⟩
  | ethPhyInterfaceUp =>
    have hguard := linkMove_guard i.record s
    rw [hm] at hguard
    obtain rfl : s = .ethDisconnected := hguard
    have hstep : linkStep (.wanManager reads) ifname .ethDisconnected i =
        (.ethValidatingLink,[]) := by
      rw [linkStep,hm]
      rfl
    refine stepAnnounces_of_same ?_ (by rw [hstep]; exact .inl rfl)
    rw [hstep]
    exact iff_of_false (by simp) (by simp)
  | ethWanLinkFound => exact stepAnnounces_wanLinkFound hagain hm
  | ethWanLinkUp => exact stepAnnounces_wanLinkUp hm
  | ethPhyInterfaceDown => exact stepAnnounces_phyInterfaceDown hagain hm
  | exit =>
    have hstep : linkStep (.wanManager reads) ifname s i =
        transitionExit (.wanManager reads) ifname i := by
      rw [linkStep,hm]
      rfl
    have hguard := linkMove_guard i.record s
    rw [hm] at hguard
    have hs : s ≠ .ethWanLinkUp := by
      rcases hguard with rfl | ⟨rfl,-⟩ <;> simp
    refine stepAnnounces_of_same ?_ ?_
    · rw [hstep]
      exact iff_of_false (by simp [transitionExit]) hs
    · rw [hstep,transitionExit,linkStatusOf_setWanLinkStatus]
      cases i.statusDelivered with
      | true => exact .inr ⟨hs,rfl⟩
      | false => exact .inl rfl

end Step

theorem mem_announcedUp_append {calls calls' : List LinkCall} {x : Text} :
    x ∈ announcedUp (calls ++ calls') ↔
      (lastOf (linkStatusOf x) calls').or (lastOf (linkStatusOf x) calls) = some .up := by
  rw [announcedUp,Set.mem_ofPred_eq,lastOf_append]

theorem beyond_ethWanLinkUp : Beyond (· = .ethWanLinkUp) := ⟨by simp,by simp⟩

section Machine

variable {reads : Bool} {a : LinkAgent} {answers : MachineAnswers} {calls : List LinkCall}
  {name : Buf 64}

/-- One iteration for a named interface keeps the announcements in step exactly under its
condition. -/
theorem announced_linkStep_iff {ifname : Text} {i : LinkInput} {s : EthSmState}
    (hagain : i.recordAgain = i.record)
    (h : announcedUp calls = {x | s = .ethWanLinkUp ∧ ifname = x}) :
    announcedUp (calls ++ (linkStep (.wanManager reads) ifname s i).2) =
        {x | (linkStep (.wanManager reads) ifname s i).1 = .ethWanLinkUp ∧ ifname = x} ↔
      i.Reports reads ifname s := by
  have hbefore : lastOf (linkStatusOf ifname) calls = some .up ↔ s = .ethWanLinkUp := by
    have hmem := congrArg (ifname ∈ ·) h
    simpa [announcedUp] using hmem
  have hother : ∀ x, x ≠ ifname →
      (x ∈ announcedUp (calls ++ (linkStep (.wanManager reads) ifname s i).2) ↔
        x ∈ announcedUp calls) := by
    intro x hx
    rw [mem_announcedUp_append,linkStatusOf_other hx,Option.none_or]
    rfl
  constructor
  · intro heq
    rcases stepAnnounces reads ifname s hagain with ⟨hreports,-⟩ | ⟨-,hnone⟩
    · exact hreports
    · -- nothing was said, so the state must be the same
      have hmem := congrArg (ifname ∈ ·) heq
      simp only [mem_announcedUp_append,hnone,Option.none_or,hbefore] at hmem
      exact .inl (by simpa using hmem.symm)
  · intro hreports
    rcases stepAnnounces reads ifname s hagain with ⟨-,hsaid⟩ | ⟨hno,-⟩
    · ext x
      by_cases hx : x = ifname
      · rw [hx,mem_announcedUp_append,hsaid _ hbefore]
        simp
      · rw [hother x hx,h]
        exact ⟨fun hup => absurd hup.2.symm hx,fun hup => absurd hup.2.symm hx⟩
    · exact absurd hreports hno

theorem announced_machineStep_iff (h : a.control.Sound (· = .ethWanLinkUp))
    (hann : announcedUp calls = a.control.owner (· = .ethWanLinkUp)) :
    announcedUp (calls ++ (machineStep reads a answers).2) =
        (machineStep reads a answers).1.control.owner (· = .ethWanLinkUp) ↔
      (a.control.thread = .looping →
        (a.input answers).Reports reads (a.control.pstInfo.elim [] Buf.text)
          a.control.geCurrentState) := by
  by_cases ht : a.control.thread = .looping
  · obtain ⟨hcontrol,hcalls⟩ := machineStep_looping reads answers ht
    rw [hcalls]
    simp only [ht,forall_const]
    cases hp : a.control.pstInfo with
    | none =>
      have hrecord : (a.input answers).record = none := record_of_no_name a hp
      have hs := h.named ht hp
      have hnext := linkStep_nameless (P := (· = .ethWanLinkUp)) beyond_ethWanLinkUp
        (.wanManager reads) [] hrecord hs
      have hstate : ¬ (machineStep reads a answers).1.control.geCurrentState = .ethWanLinkUp := by
        rw [hcontrol,hp]
        exact hnext
      rw [owner_of_not hs] at hann
      rw [linkStep_no_record hrecord,List.append_nil,owner_of_not hstate]
      exact ⟨fun _ => .inl (iff_of_false hnext hs),fun _ => hann⟩
    | some name =>
      rw [owner_of_looping ht hp] at hann
      rw [owner_of_looping (by rw [hcontrol]; exact ht) (by rw [hcontrol]; exact hp),hcontrol,hp]
      exact announced_linkStep_iff (i := a.input answers) rfl hann
  · obtain ⟨howner,hcalls⟩ := machineStep_not_looping beyond_ethWanLinkUp reads answers ht
    rw [owner_of_not_looping ht] at hann
    rw [hcalls,List.append_nil,howner]
    exact ⟨fun _ hlooping => absurd hlooping ht,fun _ => hann⟩

end Machine

section Agent

variable {p : Platform} {reads : Bool} {q : LinkAgent × List LinkCall} {ev : LinkEvent}

theorem reportsLinks_iff (hev : ∀ answers, ev ≠ .machine answers) :
    ReportsLinks reads q ev ↔ OwnerKept (· = .ethWanLinkUp) q.1 ev := by
  cases ev with
  | machine answers => exact absurd rfl (hev answers)
  | _ => exact Iff.rfl

/-- One event keeps the announcements in step exactly under its condition. -/
theorem announcedAsOwned_agentStep_iff (h : q.1.control.Sound (· = .ethWanLinkUp))
    (hann : AnnouncedAsOwned q) :
    AnnouncedAsOwned (logged (agentStep p reads) q ev) ↔ ReportsLinks reads q ev := by
  by_cases hev : ∃ answers, ev = .machine answers
  · obtain ⟨answers,rfl⟩ := hev
    exact announced_machineStep_iff h hann
  · rw [not_exists] at hev
    have howner := owner_agentStep_eq_iff p reads h hev
    rw [reportsLinks_iff hev,← howner.2,AnnouncedAsOwned,howner.1]
    exact ⟨fun h' => h'.symm.trans hann,fun heq => hann.trans heq.symm⟩

/-- What was announced is in step with the machine after every run whose steps meet the
condition. -/
theorem announcedAsOwned_exec (e : Ethernet) {events : List LinkEvent}
    (h : Meets (logged (agentStep p reads)) (ReportsLinks reads) (⟨e,linkControlInit⟩,[])
      events) :
    AnnouncedAsOwned (exec (logged (agentStep p reads)) (⟨e,linkControlInit⟩,[]) events) := by
  have hinit : AnnouncedAsOwned (⟨e,linkControlInit⟩,[]) := by
    rw [AnnouncedAsOwned,owner_of_not_looping (by simp [linkControlInit])]
    exact Set.eq_empty_of_forall_notMem fun _ hx => absurd hx (by simp [announcedUp,lastOf])
  have hrun := exec_inv (f := logged (agentStep p reads))
    (J := fun q => q.1.control.Sound (· = .ethWanLinkUp) ∧ AnnouncedAsOwned q)
    ⟨sound_init _,hinit⟩
    (fun q ev hq hreports =>
      ⟨hq.1.agentStep beyond_ethWanLinkUp fun hev => (reportsLinks_iff hev).mp hreports,
        (announcedAsOwned_agentStep_iff hq.1 hq.2).mpr hreports⟩) h
  exact hrun.2

/-- After four iterations with nothing in between, the machine is at rest. -/
theorem atRest_of_quiet (p : Platform) (q : LinkAgent × List LinkCall)
    {answers : List MachineAnswers} (h : 4 ≤ answers.length) :
    AtRest (exec (logged (agentStep p reads)) q (answers.map .machine)).1 := by
  have hrun : (exec (logged (agentStep p reads)) q (answers.map .machine)).1 =
      exec (silent (machineStep reads)) q.1 answers := by
    rw [exec_logged_fst,exec,List.foldl_map]
    rfl
  rw [hrun]
  refine (agentRank_eq_zero_iff _).mp (rank_exec ?_ ?_ q.1 answers ((agentRank_le q.1).trans h))
  · exact fun a ha => ((agentRank_eq_zero_iff a).mp ha).still
  · exact fun a answers ha => agentRank_machineStep answers ha

end Agent

def PortRecord.IsUp (g : PortRecord) : Prop :=
  g.upstream = true ∧ g.linkStatus = .up ∧ g.wanStatus = .up

theorem EthSmState.Fits.wanLinkUp_iff {g : PortRecord} {s : EthSmState} (h : s.Fits (some g))
    (hvalidated : g.wanValidated = true) : s = .ethWanLinkUp ↔ g.IsUp := by
  constructor
  · intro hs
    rw [hs] at h
    exact h
  · intro hup
    cases s with
    | exit => exact absurd (hup.1.symm.trans h) (by simp)
    | ethDisconnected => exact absurd (hup.2.1.symm.trans h.2) (by simp)
    | ethValidatingLink => exact absurd (hvalidated.symm.trans h.2.2) (by simp)
    | ethVlanConfiguring => exact absurd (hup.2.2.symm.trans h.2.2) (by simp)
    | ethWanLinkUp => rfl

/-- Whatever happened before, after four iterations with nothing in between the WAN manager
takes as up only interfaces that are up in the port table, and takes the interface of the
machine so whenever it is up and validated. -/
theorem announcements_agree (p : Platform) (reads : Bool) (e : Ethernet)
    (events : List LinkEvent) (answers : List MachineAnswers) (hquiet : 4 ≤ answers.length)
    (h : Meets (logged (agentStep p reads)) (ReportsLinks reads) (⟨e,linkControlInit⟩,[])
      (events ++ answers.map .machine)) :
    let q := exec (logged (agentStep p reads)) (⟨e,linkControlInit⟩,[])
      (events ++ answers.map .machine)
    (∀ x ∈ announcedUp q.2, ∃ g,
      cosaDmlEthPortGetCopyOfGlobalInfoForGivenIfName q.1.ethernet.ports (some x) = some g ∧
        g.IsUp) ∧
    ∀ name g, q.1.control.thread = .looping → q.1.control.pstInfo = some name →
      cosaDmlEthPortGetCopyOfGlobalInfoForGivenIfName q.1.ethernet.ports (some name.text) =
        some g → g.wanValidated = true → g.IsUp → name.text ∈ announcedUp q.2 := by
  intro q
  have hann : announcedUp q.2 = q.1.control.owner (· = .ethWanLinkUp) := announcedAsOwned_exec e h
  have hrest : AtRest q.1 := by
    have hsplit : q = exec (logged (agentStep p reads)) (exec (logged (agentStep p reads))
        (⟨e,linkControlInit⟩,[]) events) (answers.map .machine) := List.foldl_append
    rw [hsplit]
    exact atRest_of_quiet p _ hquiet
  rw [hann]
  constructor
  · intro x hx
    obtain ⟨ht,hs,hname⟩ := hx
    rw [AtRest,ht] at hrest
    simp only [LinkAgent.record,hname] at hrest
    have hstate : q.1.control.geCurrentState = .ethWanLinkUp := hs
    rw [hstate] at hrest
    cases hg : cosaDmlEthPortGetCopyOfGlobalInfoForGivenIfName q.1.ethernet.ports (some x) with
    | none =>
      rw [hg] at hrest
      exact absurd hrest (by simp [EthSmState.Fits,EthSmState.idle])
    | some g =>
      rw [hg] at hrest
      exact ⟨g,rfl,hrest⟩
  · intro name g ht hp hg hvalidated hup
    rw [owner_of_looping ht hp]
    rw [AtRest,ht] at hrest
    simp only at hrest
    rw [record_eq _ name hp,hg] at hrest
    exact ⟨(hrest.wanLinkUp_iff hvalidated).mpr hup,rfl⟩

def connectingEvents : List LinkEvent :=
  [.setUpstream (some "eth0".toList) true succeed,
    .linkStatus (some "eth0".toList) (some "Up".toList),iterate,iterate,iterate,iterate,
    .setWanStatus 1 .up]

theorem announcements_agree_connected :
    "eth0".toList ∈ announcedUp (exec (logged (agentStep fourPorts false)) (fourPortsAgent,[])
      (connectingEvents ++ (List.replicate 4 ⟨none,true,true⟩).map .machine)).2 ∧
    ∃ g, cosaDmlEthPortGetCopyOfGlobalInfoForGivenIfName
      (exec (logged (agentStep fourPorts false)) (fourPortsAgent,[])
        (connectingEvents ++ (List.replicate 4 ⟨none,true,true⟩).map .machine)).1.ethernet.ports
          (some "eth0".toList) = some g ∧ g.IsUp := by
  have hidle : ∀ (q : LinkAgent × List LinkCall), q.1.control.thread ≠ .looping →
      ∀ ev, (∀ answers, ev ≠ .machine answers) → ReportsLinks false q ev := by
    intro q ht ev hev
    rw [reportsLinks_iff hev]
    exact fun x hx => absurd hx.1 ht
  have hmeets : Meets (logged (agentStep fourPorts false)) (ReportsLinks false)
      (fourPortsAgent,[]) (connectingEvents ++
        (List.replicate 4 ⟨none,true,true⟩).map .machine) := by
    refine ⟨hidle _ (by decide +kernel) _ (by simp),hidle _ (by decide +kernel) _ (by simp),
      fun _ => by decide +kernel,fun _ => by decide +kernel,fun _ => by decide +kernel,
      fun _ => by decide +kernel,fun _ _ _ _ hreq => absurd hreq (by simp [startRequest]),
      fun _ => by decide +kernel,
      fun _ => by decide +kernel,fun _ => by decide +kernel,fun _ => by decide +kernel,trivial⟩
  have hup : lastOf (linkStatusOf "eth0".toList)
      (exec (logged (agentStep fourPorts false)) (fourPortsAgent,[])
        (connectingEvents ++ (List.replicate 4 ⟨none,true,true⟩).map .machine)).2 = some .up := by
    decide +kernel
  exact ⟨hup,(announcements_agree fourPorts false _ connectingEvents
    (List.replicate 4 ⟨none,true,true⟩) (by decide) hmeets).1 _ hup⟩

end EthAgent
