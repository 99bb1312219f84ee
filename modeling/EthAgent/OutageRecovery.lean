import EthAgent.LinkDown
import EthAgent.PortTable

/-!
The outages that the simulation of a WAN link makes, over crashes of the agent. The
callbacks that it calls set `phylink_wan_state` of sysevent, which outlives the agent, as
the file `EWAN_LINK_DOWN_TEST_FILE` does. `CosaEthernetInitialize` brings the link up again
if it finds the file.
-/

set_option autoImplicit false

namespace EthAgent
open CString Runs Interleaving

/-- What syscfg and the HAL answer while a callback runs. -/
structure EthWanAnswers where
  ethWanEnabled : Bool
  redirFlag : Option Text
  captivePortalEnable : Option Text
  wanoeIfname : Option Text

/-- Beside, whether the test file can be created and removed. -/
structure OutageAnswers where
  callback : EthWanAnswers
  created : Bool
  removed : Bool

inductive LedState where
  | solid
  | blink
  deriving DecidableEq

/-- What the callbacks and the simulation do outside their own variables. -/
inductive OutsideCall where
  | ethWanSetLED (state : LedState)
  | setPhylinkWanState (status : LinkStatus)
  | setEthwanInitialized
  | enableNtp
  | publishEWanLinkStatus (linkStatus : Bool)
  | portLinkStatusCallback (wanoeIfname state : Text)
  | createFile
  | removeFile
  deriving DecidableEq

/-- Without `WAN_MANAGER_UNIFICATION_ENABLED` the callbacks return at once while
`isEthWanEnabled` is false. -/
def EthWanAnswers.runs (unified : Bool) (a : EthWanAnswers) : Bool := unified || a.ethWanEnabled

def captivePortalLed (a : EthWanAnswers) : List OutsideCall :=
  match a.redirFlag, a.captivePortalEnable with
  | some redirFlag, some captivePortalEnable =>
    (if redirFlag = "true".toList ∧ captivePortalEnable = "true".toList then
      [.ethWanSetLED .blink] else []) ++
      if captivePortalEnable = "false".toList then [.ethWanSetLED .solid] else []
  | _, _ => []

def ethWanLinkUpCallback (unified : Bool) (a : EthWanAnswers) : List OutsideCall :=
  if a.runs unified then
    captivePortalLed a ++
      [.setPhylinkWanState .up,.setEthwanInitialized,.enableNtp,.publishEWanLinkStatus true] ++
      (a.wanoeIfname.map fun ifname => .portLinkStatusCallback ifname "Up".toList).toList
  else []

def ethWanLinkDownCallback (unified : Bool) (a : EthWanAnswers) : List OutsideCall :=
  if a.runs unified then
    [.setPhylinkWanState .down,.publishEWanLinkStatus false] ++
      (a.wanoeIfname.map fun ifname => .portLinkStatusCallback ifname "Down".toList).toList
  else []

structure OutageTraces where
  testFile : Bool
  phylinkWanState : LinkStatus
  deriving DecidableEq

def OutsideCall.write (t : OutageTraces) : OutsideCall → OutageTraces
  | .setPhylinkWanState status => { t with phylinkWanState := status }
  | .createFile => { t with testFile := true }
  | .removeFile => { t with testFile := false }
  | _ => t

def createFile (a : OutageAnswers) : List OutsideCall := if a.created then [.createFile] else []

def removeIfFileExists (t : OutageTraces) (a : OutageAnswers) : List OutsideCall :=
  if t.testFile ∧ a.removed then [.removeFile] else []

def simCalls (unified : Bool) (s : LinkDownStatus) (t : OutageTraces) (a : OutageAnswers) :
    SimPoint → List OutsideCall
  | .simLocked =>
    if s.eWanLinkDown then ethWanLinkDownCallback unified a.callback ++ createFile a else []
  | .simUp => ethWanLinkUpCallback unified a.callback ++ removeIfFileExists t a
  | _ => []

/-- How far `CosaEthernetInitialize` is: the test file is still to be looked for, or was
removed and the link is to be brought up. -/
inductive BootPoint where
  | pending
  | raising
  | done
  deriving DecidableEq

structure OutageState where
  conf : SimConf
  traces : OutageTraces
  boot : BootPoint

/-- A section of the simulation, the next section of `CosaEthernetInitialize`, or the end of
the agent in the section of the thread at place `i`, after so many of its calls. The agent
starts again with the timeout of syscfg. -/
inductive OutageEvent where
  | step (ev : SimStep) (a : OutageAnswers)
  | boot (a : OutageAnswers)
  | crash (i : Nat) (a : OutageAnswers) (calls eWanLinkDownTimeout : Nat)

def startedStatus (eWanLinkDownTimeout : Nat) : LinkDownStatus where
  eWanLinkDown := false
  eWanLinkDownTimeout := eWanLinkDownTimeout
  linkdownlock := false

def sectionCalls (unified : Bool) (q : OutageState) (a : OutageAnswers) (i : Nat) :
    List OutsideCall :=
  (q.conf.threads[i]?).elim [] (simCalls unified q.conf.shared q.traces a)

def OutageTraces.after (t : OutageTraces) (calls : List OutsideCall) : OutageTraces :=
  calls.foldl OutsideCall.write t

def outageStep (unified : Bool) (q : OutageState) : OutageEvent → OutageState
  | .step (.enter call) _ => { q with conf := (linkDownStep q.conf (.enter call)).1 }
  | .step (.resume i answers) a =>
    { q with
      conf := (linkDownStep q.conf (.resume i answers)).1
      traces := q.traces.after (sectionCalls unified q a i) }
  | .boot a =>
    match q.boot with
    | .pending =>
      { q with
        traces := q.traces.after (removeIfFileExists q.traces a)
        boot := if q.traces.testFile ∧ a.removed then .raising else .done }
    | .raising =>
      { q with
        traces := q.traces.after (ethWanLinkUpCallback unified a.callback)
        boot := .done }
    | .done => q
  | .crash i a calls eWanLinkDownTimeout =>
    ⟨⟨startedStatus eWanLinkDownTimeout,[]⟩,
      q.traces.after ((sectionCalls unified q a i).take calls),.pending⟩

def startedOutage (eWanLinkDownTimeout : Nat) : OutageState :=
  ⟨⟨startedStatus eWanLinkDownTimeout,[]⟩,⟨false,.up⟩,.pending⟩

/-- A simulation that has brought the link down, or found that it need not, and is still to
bring it up. -/
def SimPoint.inOutage : SimPoint → Bool
  | .simTest => true
  | .simWait _ => true
  | .simAsleep _ => true
  | .simStranded _ => true
  | .simWoken _ => true
  | .simReset => true
  | .simUp => true
  | _ => false

def outages (threads : List SimPoint) : Nat := threads.countP SimPoint.inOutage

/-- A link that is down is about to be brought up by `CosaEthernetInitialize`, or it is on
record and a simulation, or `CosaEthernetInitialize`, is still to bring it up. -/
def OutageKept (q : OutageState) : Prop :=
  q.traces.phylinkWanState = .down → q.boot = .raising ∨
    q.traces.testFile = true ∧ (0 < outages q.conf.threads ∨ q.boot = .pending)

def OutageTraces.Recorded (t : OutageTraces) : Prop :=
  t.phylinkWanState = .down → t.testFile = true

/-- The file is there before the link is down for long, the callbacks run when the link is to
be brought up, and the agent does not end between the sysevent and the file. -/
def KeepsOutage (unified : Bool) (q : OutageState) : OutageEvent → Prop
  | .step (.enter _) _ => True
  | .step (.resume i _) a => ∀ p ∈ q.conf.threads[i]?,
    match p with
    | .simLocked => q.conf.shared.eWanLinkDown = true → a.callback.runs unified = true →
      q.boot = .raising ∨ q.traces.testFile = true ∨ a.created = true
    | .simUp => a.callback.runs unified = false → q.traces.phylinkWanState = .down →
      q.boot = .raising ∨
        a.removed = false ∧ (0 < outages (q.conf.threads.eraseIdx i) ∨ q.boot = .pending)
    | _ => True
  | .boot a =>
    match q.boot with
    | .pending => q.traces.phylinkWanState = .down →
      a.removed = true ∨ 0 < outages q.conf.threads
    | .raising => a.callback.runs unified = false → q.traces.phylinkWanState = .down →
      q.traces.testFile = true ∧ 0 < outages q.conf.threads
    | .done => True
  | .crash i a calls _ => (q.traces.after ((sectionCalls unified q a i).take calls)).Recorded

section Traces

variable {unified : Bool} {t : OutageTraces} {a : OutageAnswers}

@[simp] theorem after_nil : t.after [] = t := rfl

theorem after_append (calls calls' : List OutsideCall) :
    t.after (calls ++ calls') = (t.after calls).after calls' := List.foldl_append

theorem after_linkUp (c : EthWanAnswers) :
    t.after (ethWanLinkUpCallback unified c) =
      if c.runs unified then { t with phylinkWanState := .up } else t := by
  unfold ethWanLinkUpCallback
  split
  · have hled : t.after (captivePortalLed c) = t := by
      unfold captivePortalLed
      split
      · split_ifs <;> rfl
      · rfl
    rw [after_append,after_append,hled]
    cases c.wanoeIfname <;> rfl
  · rfl

theorem after_linkDown (c : EthWanAnswers) :
    t.after (ethWanLinkDownCallback unified c) =
      if c.runs unified then { t with phylinkWanState := .down } else t := by
  unfold ethWanLinkDownCallback
  split
  · rw [after_append]
    cases c.wanoeIfname <;> rfl
  · rfl

theorem after_createFile :
    t.after (createFile a) = { t with testFile := t.testFile || a.created } := by
  unfold createFile
  cases a.created <;> simp [OutageTraces.after,OutsideCall.write]

theorem after_removeIfFileExists {t' : OutageTraces} (h : t'.testFile = t.testFile) :
    t'.after (removeIfFileExists t a) = { t' with testFile := t'.testFile && !a.removed } := by
  unfold removeIfFileExists
  rw [← h]
  obtain ⟨testFile,phylinkWanState⟩ := t'
  cases testFile <;> cases a.removed <;> simp [OutageTraces.after,OutsideCall.write]

theorem after_simLocked {s : LinkDownStatus} (hflag : s.eWanLinkDown = true) :
    t.after (simCalls unified s t a .simLocked) =
      ⟨t.testFile || a.created,
        if a.callback.runs unified then .down else t.phylinkWanState⟩ := by
  rw [simCalls,if_pos hflag,after_append,after_linkDown]
  split <;> exact after_createFile

theorem after_simUp (s : LinkDownStatus) :
    t.after (simCalls unified s t a .simUp) =
      ⟨t.testFile && !a.removed,
        if a.callback.runs unified then .up else t.phylinkWanState⟩ := by
  rw [simCalls,after_append,after_linkUp]
  split <;> exact after_removeIfFileExists rfl

end Traces

section Outages

variable {s : LinkDownStatus} {p : SimPoint} {c : SimConf}

theorem inOutage_of_wakes {q p : SimPoint} (h : q.wakes = some p) : p.inOutage = q.inOutage := by
  cases q with
  | simAsleep limited =>
    obtain rfl := Option.some_inj.mp h
    rfl
  | _ => exact absurd h (by simp [SimPoint.wakes])

theorem inOutage_strand (p : SimPoint) : p.strand.inOutage = p.inOutage := by
  cases p <;> rfl

/-- Neither a signal nor a new `LinkdownCond` ends an outage. -/
theorem outages_condEffect (s : LinkDownStatus) (a : SimAnswers) (p : SimPoint)
    (threads : List SimPoint) : outages (condEffect s a p threads) = outages threads := by
  cases p with
  | setWake =>
    unfold condEffect
    split
    · rfl
    · exact CondVar.countP_signal_of_kept (fun q p => inOutage_of_wakes) a.woken threads
  | simCreated =>
    rw [condEffect,outages,List.countP_map]
    exact List.countP_congr fun p _ => by rw [Function.comp_apply,inOutage_strand]
  | _ => rfl

/-- A section begins an outage, ends it, or leaves it as it is. -/
theorem outages_resume (a : SimAnswers) :
    outages (linkDownResume s p a).threads =
      match p with
      | .simLocked => 1
      | .simUp => 0
      | p => if p.inOutage then 1 else 0 := by
  cases p with
  | setSignal bValue =>
    cases hflag : s.eWanLinkDown <;> simp [linkDownResume,hflag,outages,SimPoint.inOutage]
  | setCreate => cases hc : a.created <;> simp [linkDownResume,hc,outages,SimPoint.inOutage]
  | simLock =>
    cases hlock : s.linkdownlock <;> simp [linkDownResume,hlock,outages,SimPoint.inOutage]
  | simAsleep limited =>
    cases hw : a.wakes <;> simp [linkDownResume,hw,outages,SimPoint.inOutage]
  | simStranded limited =>
    cases hw : a.wakes <;> simp [linkDownResume,hw,outages,SimPoint.inOutage]
  | simWoken limited =>
    cases hlock : s.linkdownlock <;> cases limited <;>
      simp [linkDownResume,hlock,outages,SimPoint.inOutage]
  | _ => rfl

theorem outages_step {i : Nat} (a : SimAnswers) (hp : c.threads[i]? = some p) :
    outages (linkDownStep c (.resume i a)).1.threads =
      outages (linkDownResume c.shared p a).threads + outages (c.threads.eraseIdx i) := by
  rw [linkDownStep_resume a hp]
  simp only [outages_condEffect]
  exact List.countP_append

theorem outages_threads {i : Nat} (hp : c.threads[i]? = some p) :
    outages c.threads = (if p.inOutage then 1 else 0) + outages (c.threads.eraseIdx i) := by
  have hcount := countP_resume (κ := LinkDownCall) () hp SimPoint.inOutage
  rw [outages,hcount]
  exact Nat.add_comm _ _

/-- A section that neither begins nor ends an outage. -/
theorem outages_step_same {i : Nat} (a : SimAnswers) (hp : c.threads[i]? = some p)
    (hlocked : p ≠ .simLocked) (hup : p ≠ .simUp) :
    outages (linkDownStep c (.resume i a)).1.threads = outages c.threads := by
  rw [outages_step a hp,outages_resume,outages_threads hp]
  cases p with
  | simLocked => exact absurd rfl hlocked
  | simUp => exact absurd rfl hup
  | _ => rfl

end Outages

section Step

variable {unified : Bool} {q : OutageState}

/-- At a section that neither begins nor ends an outage. -/
theorem outageKept_same {i : Nat} {p : SimPoint} (answers : SimAnswers) (a : OutageAnswers)
    (hp : q.conf.threads[i]? = some p) (hlocked : p ≠ .simLocked) (hup : p ≠ .simUp) :
    OutageKept (outageStep unified q (.step (.resume i answers) a)) ↔ OutageKept q := by
  have hcalls : sectionCalls unified q a i = [] := by
    rw [sectionCalls,hp]
    cases p with
    | simLocked => exact absurd rfl hlocked
    | simUp => exact absurd rfl hup
    | _ => rfl
  simp only [OutageKept,outageStep,hcalls,after_nil,outages_step_same answers hp hlocked hup]

theorem outageKept_simLocked {i : Nat} (answers : SimAnswers) (a : OutageAnswers)
    (hp : q.conf.threads[i]? = some .simLocked) (h : OutageKept q) :
    OutageKept (outageStep unified q (.step (.resume i answers) a)) ↔
      (q.conf.shared.eWanLinkDown = true → a.callback.runs unified = true →
        q.boot = .raising ∨ q.traces.testFile = true ∨ a.created = true) := by
  have hcalls : sectionCalls unified q a i =
      simCalls unified q.conf.shared q.traces a .simLocked := by
    rw [sectionCalls,hp]
    rfl
  have hsome : 0 < outages (linkDownStep q.conf (.resume i answers)).1.threads := by
    rw [outages_step answers hp,outages_resume]
    exact Nat.lt_add_right _ Nat.zero_lt_one
  simp only [OutageKept,outageStep,hcalls,hsome,true_or,and_true]
  cases hflag : q.conf.shared.eWanLinkDown with
  | false =>
    have hnone : simCalls unified q.conf.shared q.traces a .simLocked = [] := by
      rw [simCalls,hflag]
      rfl
    rw [hnone,after_nil]
    simp only [Bool.false_eq_true,false_implies,iff_true]
    exact fun hdown => (h hdown).imp id And.left
  | true =>
    rw [after_simLocked hflag]
    cases hruns : a.callback.runs unified with
    | true => simp
    | false =>
      simp only [Bool.false_eq_true,if_false,false_implies,forall_const,iff_true]
      intro hdown
      refine (h hdown).imp id fun hrecorded => ?_
      rw [hrecorded.1,Bool.true_or]

theorem outageKept_simUp {i : Nat} (answers : SimAnswers) (a : OutageAnswers)
    (hp : q.conf.threads[i]? = some .simUp) (h : OutageKept q) :
    OutageKept (outageStep unified q (.step (.resume i answers) a)) ↔
      (a.callback.runs unified = false → q.traces.phylinkWanState = .down →
        q.boot = .raising ∨
          a.removed = false ∧ (0 < outages (q.conf.threads.eraseIdx i) ∨ q.boot = .pending)) := by
  have hcalls : sectionCalls unified q a i =
      simCalls unified q.conf.shared q.traces a .simUp := by
    rw [sectionCalls,hp]
    rfl
  simp only [OutageKept,outageStep,hcalls,after_simUp,outages_step answers hp,outages_resume,
    Nat.zero_add]
  cases hruns : a.callback.runs unified with
  | true => simp
  | false =>
    simp only [Bool.false_eq_true,if_false,forall_const]
    refine forall_congr' fun hdown => ?_
    rcases h hdown with hraising | ⟨hfile,-⟩
    · simp [hraising]
    · simp [hfile]

theorem outageKept_boot (a : OutageAnswers) (h : OutageKept q) :
    OutageKept (outageStep unified q (.boot a)) ↔ KeepsOutage unified q (.boot a) := by
  cases hboot : q.boot with
  | pending =>
    simp only [OutageKept,outageStep,KeepsOutage,hboot,after_removeIfFileExists rfl]
    refine forall_congr' fun hdown => ?_
    obtain ⟨hfile,-⟩ := (h hdown).resolve_left (by simp [hboot])
    cases hremoved : a.removed <;> simp [hfile]
  | raising =>
    simp only [OutageKept,outageStep,KeepsOutage,hboot,after_linkUp]
    cases hruns : a.callback.runs unified <;> simp
  | done => simpa only [outageStep,KeepsOutage,hboot,iff_true] using h

theorem outageKept_iff (ev : OutageEvent) (h : OutageKept q) :
    OutageKept (outageStep unified q ev) ↔ KeepsOutage unified q ev := by
  cases ev with
  | step ev a =>
    cases ev with
    | enter call =>
      have hsame : outages (linkDownStep q.conf (.enter call)).1.threads =
          outages q.conf.threads := by
        cases call with
        | setLinkDown bValue =>
          by_cases hv : q.conf.shared.eWanLinkDown = bValue <;>
            simp [linkDownStep,step,outcome,linkDownProgram,linkDownEnter,hv,rest,outages,
              SimPoint.inOutage]
        | setLinkDownTimeout uValue =>
          by_cases hv : q.conf.shared.eWanLinkDownTimeout = uValue <;>
            simp [linkDownStep,step,outcome,linkDownProgram,linkDownEnter,hv,rest]
      simpa only [OutageKept,outageStep,KeepsOutage,hsame,iff_true] using h
    | resume i answers =>
      cases hp : q.conf.threads[i]? with
      | none =>
        have hconf : (linkDownStep q.conf (.resume i answers)).1 = q.conf := by
          simp [linkDownStep,step,outcome,hp]
        simpa [OutageKept,outageStep,KeepsOutage,hconf,sectionCalls,hp] using h
      | some p =>
        cases p with
        | simLocked => exact (outageKept_simLocked answers a hp h).trans (by simp [KeepsOutage,hp])
        | simUp => exact (outageKept_simUp answers a hp h).trans (by simp [KeepsOutage,hp])
        | _ =>
          exact (outageKept_same answers a hp (by simp) (by simp)).trans
            (by simp [KeepsOutage,hp,h])
  | boot a => exact outageKept_boot a h
  | crash i a calls eWanLinkDownTimeout =>
    simp only [OutageKept,outageStep,KeepsOutage,OutageTraces.Recorded,or_true,and_true]
    simp

end Step

/-- Along every run, whatever the threads and the crashes, a link that the simulation has
brought down is still to be brought up, exactly as long as every event meets its
condition. -/
theorem outage_kept_iff (unified : Bool) (eWanLinkDownTimeout : Nat)
    (events : List OutageEvent) :
    Always (outageStep unified) OutageKept (startedOutage eWanLinkDownTimeout) events ↔
      Meets (outageStep unified) (KeepsOutage unified) (startedOutage eWanLinkDownTimeout)
        events :=
  always_iff_meets (J := OutageKept) (fun hdown => absurd hdown (by simp [startedOutage]))
    (fun _ ev h hkeeps => (outageKept_iff ev h).mpr hkeeps) (fun _ h => h)
    (fun _ ev h hkept => (outageKept_iff ev h).mp hkept)

end EthAgent
