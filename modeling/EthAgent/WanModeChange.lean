import EthAgent.Lib.CString
import EthAgent.Lib.Interleaving

/-!
Changes of the WAN mode without a reboot, in the non-unified build: a Set of
`SelectedOperationalMode` tests `wanOperState`, and what it starts is a thread
`ThreadConfigEthWan`, which marks the change in `wanOperState` by itself.
-/

set_option autoImplicit false

namespace EthAgent
open CString Runs Interleaving

inductive WanOperState where
  | none
  | resetInprogress
  | resetCompleted
  deriving DecidableEq

inductive WanMode where
  | auto
  | eth
  | docsis
  deriving DecidableEq

def WanMode.number : WanMode → Nat
  | .auto => 0
  | .eth => 1
  | .docsis => 2

/-- The fields of `EthWanCfg` and the syscfg value that the Set and its thread use. -/
structure WanControl where
  wanOperState : WanOperState
  prevSelMode : Nat
  selectedWanMode : Option Nat
  deriving DecidableEq

/-- The modes that the product supports besides Ethernet. -/
structure WanProduct where
  docsis : Bool
  auto : Bool

/-- What the environment answers in a section: whether syscfg reads and stores
`selected_wan_mode`, the value of `curr_wan_mode` if it can be read, whether
`malloc` and `pthread_create` succeed, and whether `CosaDmlConfigureEthWan` does. -/
structure WanAnswers where
  read : Bool
  stored : Bool
  currWanMode : Option Nat
  allocated : Bool
  created : Bool
  configured : Bool

inductive WanPoint where
  | setTest (wanOperState : WanOperState) (pString : Text)
  | setRead (mode : WanMode)
  | setStore (mode : WanMode)
  | setCompare (mode : WanMode)
  | setEnable (bValue : Bool)
  | configCreated (bValue : Bool)
  | configRunning (bValue : Bool)
  | configFinished
  deriving DecidableEq

inductive WanEvent where
  | returned (accepted : Bool)
  | started
  deriving DecidableEq

abbrev WanOutcome := Outcome WanControl WanPoint WanEvent

def selectedMode (w : WanProduct) (pString : Text) : Option WanMode :=
  if pString = "DOCSIS".toList then if w.docsis then some .docsis else none
  else if pString = "Ethernet".toList then some .eth
  else if pString = "Auto".toList then if w.auto then some .auto else none
  else none

/-- `EthernetWAN_SetParamStringValue` reads the state on entry. -/
def setSelectedMode (s : WanControl) (pString : Text) : WanOutcome :=
  ⟨s,[.setTest s.wanOperState pString],[]⟩

/-- `ConfigEthWan`, which reports no failure. -/
def configEthWan (s : WanControl) (bValue : Bool) (a : WanAnswers) : WanOutcome :=
  if a.allocated ∧ a.created then ⟨s,[.configCreated bValue],[.started,.returned true]⟩
  else ⟨s,[],[.returned true]⟩

def wanResume (w : WanProduct) (s : WanControl) (point : WanPoint) (a : WanAnswers) :
    WanOutcome :=
  match point with
  | .setTest wanOperState pString =>
    if wanOperState = .resetInprogress then ⟨s,[],[.returned false]⟩
    else
      let s := { s with wanOperState := .none }
      match selectedMode w pString with
      | none => ⟨s,[],[.returned false]⟩
      | some mode => ⟨s,[.setRead mode],[]⟩
  | .setRead mode =>
    match s.selectedWanMode,a.read with
    | some prevSelMode,true => ⟨{ s with prevSelMode := prevSelMode },[.setStore mode],[]⟩
    | _,_ => ⟨s,[.setStore mode],[]⟩
  | .setStore mode =>
    if a.stored then ⟨{ s with selectedWanMode := some mode.number },[.setCompare mode],[]⟩
    else ⟨s,[],[.returned false]⟩
  | .setCompare mode =>
    if a.currWanMode = some mode.number ∨ mode = .auto then ⟨s,[],[.returned true]⟩
    else ⟨s,[.setEnable (mode = .eth)],[]⟩
  | .setEnable bValue => configEthWan s bValue a
  | .configCreated bValue =>
    ⟨{ s with wanOperState := .resetInprogress },[.configRunning bValue],[]⟩
  | .configRunning _ =>
    if a.configured then ⟨s,[.configFinished],[]⟩
    else
      ⟨if a.stored then { s with selectedWanMode := some s.prevSelMode } else s,
        [.configFinished],[]⟩
  | .configFinished => ⟨{ s with wanOperState := .resetCompleted },[],[]⟩

def wanProgram (w : WanProduct) : Program WanControl WanPoint Text WanAnswers WanEvent where
  enter := setSelectedMode
  resume := wanResume w

abbrev WanConf := Conf WanControl WanPoint
abbrev WanStep := Event Text WanAnswers

/-- A thread `ThreadConfigEthWan` between its creation and its completion. -/
def WanPoint.isConfig : WanPoint → Bool
  | .configCreated _ => true
  | .configRunning _ => true
  | .configFinished => true
  | _ => false

/-- A Set that has found no change in progress when it began. -/
def WanPoint.mayStart : WanPoint → Bool
  | .setTest wanOperState _ => wanOperState ≠ .resetInprogress
  | .setRead _ => true
  | .setStore _ => true
  | .setCompare _ => true
  | .setEnable _ => true
  | _ => false

/-- A thread that has not yet marked its change in `wanOperState`. -/
def WanPoint.isUnmarked : WanPoint → Bool
  | .configCreated _ => true
  | _ => false

def WanPoint.isPending (p : WanPoint) : Bool := p.isConfig || p.mayStart

def OneChange (q : WanConf × List WanEvent) : Prop := q.1.threads.countP WanPoint.isConfig ≤ 1

instance : DecidablePred OneChange := fun _ => inferInstanceAs (Decidable (_ ≤ _))

def StartsAlone (w : WanProduct) (q : WanConf × List WanEvent) (ev : WanStep) : Prop :=
  .started ∈ (step (wanProgram w) q.1 ev).2 → ∀ p ∈ q.1.threads, p.isConfig = false

/-- A Set that finds no change in progress begins while no other such Set is being
handled, and no thread has yet to mark its change. -/
def BeginsAlone (q : WanConf × List WanEvent) : WanStep → Prop
  | .enter _ =>
    q.1.shared.wanOperState ≠ .resetInprogress →
      ∀ p ∈ q.1.threads, p.mayStart = false ∧ p.isUnmarked = false
  | .resume _ _ => True

instance (q : WanConf × List WanEvent) : DecidablePred (BeginsAlone q)
  | .enter _ => inferInstanceAs (Decidable (_ → _))
  | .resume _ _ => .isTrue trivial

theorem not_config_of_not_pending {p : WanPoint} (h : p.isPending = false) :
    p.isConfig = false ∧ p.mayStart = false := by
  simpa [WanPoint.isPending] using h

theorem none_pending {ps : List WanPoint} (h : ps.countP WanPoint.isPending = 0) :
    ∀ p ∈ ps, p.isPending = false :=
  fun p hp => by simpa using List.countP_eq_zero.mp h p hp

/-- At most one change is pending or may be, and one that is marked shows in
`wanOperState`. -/
structure OnePending (c : WanConf) : Prop where
  pending : c.threads.countP WanPoint.isPending ≤ 1
  marked : ∀ p ∈ c.threads, p.isConfig → p.isUnmarked = false →
    c.shared.wanOperState = .resetInprogress

/-- What a thread leaves: nothing if it cannot start a change, and at most one
thread otherwise, whose change shows in `wanOperState` if it is marked. -/
theorem wanResume_spec (w : WanProduct) {s : WanControl} {p : WanPoint} (a : WanAnswers)
    (h : p.isConfig → p.isUnmarked = false → s.wanOperState = .resetInprogress) :
    (p.isPending = false → wanResume w s p a = ⟨s,[],[.returned false]⟩) ∧
      (wanResume w s p a).threads.length ≤ 1 ∧
      (∀ p' ∈ (wanResume w s p a).threads, p'.isConfig → p'.isUnmarked = false →
        (wanResume w s p a).shared.wanOperState = .resetInprogress) ∧
      (.started ∈ (wanResume w s p a).events → p.isPending ∧ p.isConfig = false) := by
  cases p with
  | setTest wanOperState pString =>
    by_cases hs : wanOperState = .resetInprogress
    · simp [wanResume,hs]
    · cases hm : selectedMode w pString <;>
        simp [wanResume,hs,hm,WanPoint.isPending,WanPoint.isConfig,WanPoint.mayStart]
  | setRead mode =>
    cases hw : s.selectedWanMode <;> cases hr : a.read <;>
      simp [wanResume,hw,hr,WanPoint.isPending,WanPoint.isConfig,WanPoint.mayStart]
  | setStore mode =>
    by_cases hst : a.stored <;>
      simp [wanResume,hst,WanPoint.isPending,WanPoint.isConfig,WanPoint.mayStart]
  | setCompare mode =>
    by_cases hc : a.currWanMode = some mode.number ∨ mode = .auto <;>
      simp [wanResume,hc,WanPoint.isPending,WanPoint.isConfig,WanPoint.mayStart]
  | setEnable bValue =>
    by_cases hc : a.allocated ∧ a.created <;>
      simp [wanResume,configEthWan,hc,WanPoint.isPending,WanPoint.isConfig,WanPoint.mayStart,
        WanPoint.isUnmarked]
  | configCreated bValue =>
    simp [wanResume,WanPoint.isPending,WanPoint.isConfig]
  | configRunning bValue =>
    have hs := h rfl rfl
    by_cases hc : a.configured <;> by_cases hst : a.stored <;>
      simp [wanResume,hc,hst,hs,WanPoint.isPending,WanPoint.isConfig]
  | configFinished =>
    simp [wanResume,WanPoint.isPending,WanPoint.isConfig]

theorem OnePending.enter {q : WanConf × List WanEvent} (h : OnePending q.1) (w : WanProduct)
    {pString : Text} (hc : BeginsAlone q (.enter pString)) :
    OnePending (stepLog (wanProgram w) q (.enter pString)).1 := by
  have ho : outcome (wanProgram w) q.1 (.enter pString) =
      some (setSelectedMode q.1.shared pString) := rfl
  rw [stepLog_some ho]
  refine ⟨?_,fun p hp hconfig hmarked => ?_⟩
  · simp only [setSelectedMode,rest,List.singleton_append,List.countP_cons]
    by_cases hs : q.1.shared.wanOperState = .resetInprogress
    · simpa [hs,WanPoint.isPending,WanPoint.isConfig,WanPoint.mayStart] using h.pending
    · have hnone : q.1.threads.countP WanPoint.isPending = 0 := by
        refine List.countP_eq_zero.mpr fun p hp hpending => ?_
        obtain ⟨hmay,hunmarked⟩ := hc hs p hp
        have hconfig : p.isConfig := by simpa [WanPoint.isPending,hmay] using hpending
        exact hs (h.marked p hp hconfig hunmarked)
      rw [hnone]
      split <;> omega
  · rcases List.mem_cons.mp hp with rfl | hold
    · exact absurd hconfig (by simp [WanPoint.isConfig])
    · exact h.marked p hold hconfig hmarked

/-- A thread that can start a change is the only one, so what it does to
`wanOperState` meets no other change. -/
theorem OnePending.resume {q : WanConf × List WanEvent} (h : OnePending q.1) (w : WanProduct)
    {k : Nat} {p : WanPoint} (a : WanAnswers) (hk : q.1.threads[k]? = some p) :
    OnePending (stepLog (wanProgram w) q (.resume k a)).1 := by
  have ho : outcome (wanProgram w) q.1 (.resume k a) = some (wanResume w q.1.shared p a) :=
    outcome_resume hk
  obtain ⟨hidle,hone,hmarked,-⟩ := wanResume_spec w a (h.marked p (List.mem_of_getElem? hk))
  have hcount := countP_resume (κ := Text) a hk WanPoint.isPending
  have hpending := h.pending
  rw [stepLog_some ho]
  cases hp : p.isPending with
  | false =>
    rw [hidle hp]
    rw [hp] at hcount
    refine ⟨?_,fun p' hp' => ?_⟩
    · rw [List.nil_append]
      exact hcount.ge.trans hpending
    · have hold : p' ∈ rest q.1 (.resume k a : WanStep) := hp'
      exact h.marked p' (mem_of_mem_rest hold)
  | true =>
    rw [if_pos hp] at hcount
    have hrest : (rest q.1 (.resume k a : WanStep)).countP WanPoint.isPending = 0 := by omega
    refine ⟨?_,fun p' hp' hconfig hun => ?_⟩
    · have hle := (wanResume w q.1.shared p a).threads.countP_le_length (p := WanPoint.isPending)
      rw [List.countP_append,hrest]
      omega
    · rcases List.mem_append.mp hp' with hown | hother
      · exact hmarked p' hown hconfig hun
      · have hnot := not_config_of_not_pending (none_pending hrest p' hother)
        exact absurd hconfig (by simp [hnot.1])

theorem OnePending.step {q : WanConf × List WanEvent} (h : OnePending q.1) (w : WanProduct)
    {ev : WanStep} (hc : BeginsAlone q ev) : OnePending (stepLog (wanProgram w) q ev).1 := by
  cases ev with
  | enter pString => exact h.enter w hc
  | resume k a =>
    exact stepLog_resume_inv (J := fun q => OnePending q.1) h fun p hk => h.resume w a hk

theorem OnePending.oneChange {q : WanConf × List WanEvent} (h : OnePending q.1) :
    OneChange q := by
  refine (List.countP_mono_left fun p _ hp => ?_).trans h.pending
  rw [WanPoint.isPending,hp,Bool.true_or]

theorem OnePending.startsAlone {q : WanConf × List WanEvent} (h : OnePending q.1)
    (w : WanProduct) (ev : WanStep) : StartsAlone w q ev := by
  intro hstarted
  cases ev with
  | enter pString => exact absurd hstarted List.not_mem_nil
  | resume k a =>
    cases hk : q.1.threads[k]? with
    | none =>
      rw [step_none (by simp [outcome,hk])] at hstarted
      exact absurd hstarted List.not_mem_nil
    | some p =>
      have ho : outcome (wanProgram w) q.1 (.resume k a) = some (wanResume w q.1.shared p a) :=
        outcome_resume hk
      rw [step_some ho] at hstarted
      obtain ⟨-,-,-,hstart⟩ := wanResume_spec w a (h.marked p (List.mem_of_getElem? hk))
      obtain ⟨hp,hset⟩ := hstart hstarted
      have hcount := countP_resume (κ := Text) a hk WanPoint.isPending
      have hpending := h.pending
      rw [if_pos hp] at hcount
      have hrest : (rest q.1 (.resume k a : WanStep)).countP WanPoint.isPending = 0 := by omega
      intro p' hp'
      rcases (mem_threads_iff (κ := Text) a hk).mp hp' with rfl | hother
      · exact hset
      · exact (not_config_of_not_pending (none_pending hrest p' hother)).1

/-- In every run in which each Set that finds no change in progress begins alone,
there is never more than one `ThreadConfigEthWan`, and no Set starts a change while
an earlier one is pending. -/
theorem changes_exclude_each_other (w : WanProduct) {s : WanControl} {steps : List WanStep}
    (h : Meets (stepLog (wanProgram w)) BeginsAlone (⟨s,[]⟩,[]) steps) :
    Always (stepLog (wanProgram w)) OneChange (⟨s,[]⟩,[]) steps ∧
      Meets (stepLog (wanProgram w)) (StartsAlone w) (⟨s,[]⟩,[]) steps := by
  have h0 : OnePending (⟨s,[]⟩ : WanConf) := ⟨Nat.zero_le 1,fun _ hp => absurd hp List.not_mem_nil⟩
  refine ⟨?_,?_⟩
  · exact always_of_meets (J := fun q => OnePending q.1) h0 (fun _ _ h hc => h.step w hc)
      (fun _ h => h.oneChange) h
  · exact meets_mono (J := fun q => OnePending q.1) h0 (fun _ _ h hc => h.step w hc)
      (fun _ ev h _ => h.startsAlone w ev) h

def wanWorks : WanAnswers where
  read := true
  stored := true
  currWanMode := some 2
  allocated := true
  created := true
  configured := true

def docsisControl : WanControl where
  wanOperState := .none
  prevSelMode := 0
  selectedWanMode := some 2

def anyMode : WanProduct := ⟨true,true⟩

def changeSteps : List WanStep :=
  let change := .enter "Ethernet".toList :: List.replicate 8 (.resume 0 wanWorks)
  change ++ change

theorem changes_exclude_one_after_another :
    Meets (stepLog (wanProgram anyMode)) BeginsAlone (⟨docsisControl,[]⟩,[]) changeSteps ∧
      Always (stepLog (wanProgram anyMode)) OneChange (⟨docsisControl,[]⟩,[]) changeSteps ∧
      Meets (stepLog (wanProgram anyMode)) (StartsAlone anyMode) (⟨docsisControl,[]⟩,[])
        changeSteps :=
  ⟨by decide +kernel,changes_exclude_each_other anyMode (by decide +kernel)⟩

/-- A second Set comes before the thread of the first has marked its change. -/
def hastySteps : List WanStep :=
  let set := .enter "Ethernet".toList :: List.replicate 5 (.resume 0 wanWorks)
  set ++ set

theorem second_set_finds_no_mark :
    ¬ Always (stepLog (wanProgram anyMode)) OneChange (⟨docsisControl,[]⟩,[]) hastySteps := by
  intro h
  exact absurd h.last (by decide +kernel)

end EthAgent
