import EthAgent.Lib.CString
import EthAgent.Lib.Interleaving

/-!
Requests for the physical status, in the non-unified build. A Set of
`RequestPhyStatus` stores the instance to notify, and creates a thread
`ThreadMonitorPhyAndNotify` unless one is at work already; that thread reads the
instance when it starts.
-/

set_option autoImplicit false

namespace EthAgent
open CString Runs Interleaving

/-- The fields of `EthWanCfg` that the Set and its thread use. -/
structure PhyRequests where
  wanInstanceNumber : Buf 4
  monitorPhyStatusAndNotify : Bool
  deriving DecidableEq

inductive PhyPoint where
  | setTest (pString : Text)
  | setMark (pString : Text)
  | setCreate (pString : Text)
  | monitorStart
  | monitorPoll (ethWanInstanceNumber : Int) (counter : Nat)
  | monitorNotify (ethWanInstanceNumber : Int) (phyStatus : Bool)
  | monitorDone
  deriving DecidableEq

/-- What the environment answers in a section: whether `pthread_create` succeeds,
whether the file `/tmp/ethoff` exists, what `CosaDmlEthWanLinkStatus` says, and
whether the WAN manager takes the status. -/
structure PhyAnswers where
  created : Bool
  ethoff : Bool
  linkStatus : Bool
  taken : Bool

inductive PhyEvent where
  | accepted (pString : Text)
  | rejected
  | notified (ethWanInstanceNumber : Int) (phyStatus : Bool)
  deriving DecidableEq

abbrev PhyOutcome := Outcome PhyRequests PhyPoint PhyEvent

def wanEthInterfaceInstanceNum : Int := 2
def phyStatusMonitorMaxTimeout : Nat := 240
def phyStatusQueryInterval : Nat := 2

def instanceNumber (wanInstanceNumber : Text) : Int :=
  if wanInstanceNumber = [] then wanEthInterfaceInstanceNum else atoi wanInstanceNumber

/-- `strcpy_s` leaves the empty string when the source does not fit. -/
def requestPhyStatus (s : PhyRequests) (pString : Text) : PhyOutcome :=
  if h : pString.length < 4 then
    ⟨{ s with wanInstanceNumber := ⟨pString,h⟩ },[.setTest pString],[]⟩
  else ⟨{ s with wanInstanceNumber := ⟨[],by decide⟩ },[],[.rejected]⟩

def phyResume (s : PhyRequests) (point : PhyPoint) (a : PhyAnswers) : PhyOutcome :=
  match point with
  | .setTest pString =>
    if s.monitorPhyStatusAndNotify then ⟨s,[],[.accepted pString]⟩
    else ⟨s,[.setMark pString],[]⟩
  | .setMark pString => ⟨{ s with monitorPhyStatusAndNotify := true },[.setCreate pString],[]⟩
  | .setCreate pString => ⟨s,if a.created then [.monitorStart] else [],[.accepted pString]⟩
  | .monitorStart => ⟨s,[.monitorPoll (instanceNumber s.wanInstanceNumber.text) 0],[]⟩
  | .monitorPoll i counter =>
    if a.ethoff then ⟨s,[.monitorPoll i counter],[]⟩
    else if a.linkStatus then ⟨s,[.monitorNotify i true],[]⟩
    else if counter ≥ phyStatusMonitorMaxTimeout then ⟨s,[.monitorNotify i false],[]⟩
    else ⟨s,[.monitorPoll i (counter+phyStatusQueryInterval)],[]⟩
  | .monitorNotify i phyStatus =>
    ⟨s,[.monitorDone],if a.taken then [.notified i phyStatus] else []⟩
  | .monitorDone => ⟨{ s with monitorPhyStatusAndNotify := false },[],[]⟩

def phyProgram : Program PhyRequests PhyPoint Text PhyAnswers PhyEvent where
  enter := requestPhyStatus
  resume := phyResume

abbrev PhyConf := Conf PhyRequests PhyPoint
abbrev PhyStep := Event Text PhyAnswers

def PhyPoint.isMonitor : PhyPoint → Bool
  | .monitorStart => true
  | .monitorPoll _ _ => true
  | .monitorNotify _ _ => true
  | .monitorDone => true
  | _ => false

/-- The instance that the last accepted request names has been notified since. -/
def LastServed (log : List PhyEvent) : Prop :=
  ∀ before pString after, log = before ++ .accepted pString :: after →
    (∀ pString', .accepted pString' ∉ after) →
      ∃ phyStatus, .notified (instanceNumber pString) phyStatus ∈ after

/-- Whenever no thread is at work, the last accepted request has been served. -/
def RequestServed (q : PhyConf × List PhyEvent) : Prop :=
  (∀ p ∈ q.1.threads, p.isMonitor = false) → q.1.shared.monitorPhyStatusAndNotify = false →
    LastServed q.2

def awaitedAfter (awaited : Option Int) : PhyEvent → Option Int
  | .accepted pString => some (instanceNumber pString)
  | .notified i _ => if awaited = some i then none else awaited
  | .rejected => awaited

/-- The instance that the last accepted request names, until it is notified. -/
def awaited (log : List PhyEvent) : Option Int := log.foldl awaitedAfter none

/-- The thread has still to read the instance, or to notify this one. -/
def PhyPoint.Serves (i : Int) : PhyPoint → Prop
  | .monitorStart => True
  | .monitorPoll i' _ => i' = i
  | .monitorNotify i' _ => i' = i
  | _ => False

instance (i : Int) : DecidablePred (PhyPoint.Serves i)
  | .monitorStart => .isTrue trivial
  | .monitorPoll _ _ => inferInstanceAs (Decidable (_ = _))
  | .monitorNotify _ _ => inferInstanceAs (Decidable (_ = _))
  | .setTest _ | .setMark _ | .setCreate _ | .monitorDone => .isFalse id

/-- A thread will serve the instance, or none is there to end the monitoring. -/
def WillServe (s : PhyRequests) (threads : List PhyPoint) (i : Int) : Prop :=
  (∃ p ∈ threads, p.Serves i) ∨
    (s.monitorPhyStatusAndNotify = true ∧ ∀ p ∈ threads, p.isMonitor = false)

instance (s : PhyRequests) (threads : List PhyPoint) (i : Int) :
    Decidable (WillServe s threads i) := inferInstanceAs (Decidable (_ ∨ _))

/-- When a thread at a point may go on, beside the others and with the answers. -/
def PhyPoint.InTime (s : PhyRequests) (log : List PhyEvent) (others : List PhyPoint)
    (a : PhyAnswers) : PhyPoint → Prop
  | .setTest pString =>
    s.monitorPhyStatusAndNotify = true → WillServe s others (instanceNumber pString)
  | .setCreate pString => a.created = false → WillServe s others (instanceNumber pString)
  | .monitorStart =>
    awaited log = none ∨ awaited log = some (instanceNumber s.wanInstanceNumber.text)
  | .monitorNotify i _ => a.taken = true ∨ awaited log ≠ some i
  | _ => True

instance (s : PhyRequests) (log : List PhyEvent) (others : List PhyPoint) (a : PhyAnswers) :
    DecidablePred (PhyPoint.InTime s log others a)
  | .setTest _ => inferInstanceAs (Decidable (_ → _))
  | .setCreate _ => inferInstanceAs (Decidable (_ → _))
  | .monitorStart => inferInstanceAs (Decidable (_ ∨ _))
  | .monitorNotify _ _ => inferInstanceAs (Decidable (_ ∨ _))
  | .setMark _ | .monitorPoll _ _ | .monitorDone => .isTrue trivial

def RequestsInTime (q : PhyConf × List PhyEvent) : PhyStep → Prop
  | .enter _ => True
  | .resume k a =>
    ∀ p ∈ q.1.threads[k]?, p.InTime q.1.shared q.2 (rest q.1 (.resume k a : PhyStep)) a

instance (q : PhyConf × List PhyEvent) : DecidablePred (RequestsInTime q)
  | .enter _ => .isTrue trivial
  | .resume _ _ => inferInstanceAs (Decidable (∀ _ ∈ _, _))

@[simp] theorem awaited_append (log log' : List PhyEvent) :
    awaited (log ++ log') = log'.foldl awaitedAfter (awaited log) :=
  List.foldl_append

/-- Only another accepted request or the notification itself ends the wait. -/
theorem awaited_kept {i : Int} {log : List PhyEvent}
    (haccepted : ∀ pString, .accepted pString ∉ log)
    (hnotified : ∀ phyStatus, .notified i phyStatus ∉ log) :
    log.foldl awaitedAfter (some i) = some i := by
  induction log with
  | nil => rfl
  | cons ev log ih =>
    have hnext : awaitedAfter (some i) ev = some i := by
      cases ev with
      | accepted pString => exact absurd List.mem_cons_self (haccepted pString)
      | rejected => rfl
      | notified j phyStatus =>
        have hne : i ≠ j := by
          rintro rfl
          exact hnotified phyStatus List.mem_cons_self
        simp [awaitedAfter,hne]
    rw [List.foldl_cons,hnext]
    exact ih (fun t h => haccepted t (List.mem_cons_of_mem _ h))
      fun st h => hnotified st (List.mem_cons_of_mem _ h)

theorem lastServed_of_awaited {log : List PhyEvent} (h : awaited log = none) :
    LastServed log := by
  rintro before pString after rfl haccepted
  by_contra hnot
  push Not at hnot
  rw [awaited_append,List.foldl_cons,awaitedAfter,awaited_kept haccepted hnot] at h
  exact absurd h (Option.some_ne_none _)

def AwaitedServed (q : PhyConf × List PhyEvent) : Prop :=
  ∀ i, awaited q.2 = some i → WillServe q.1.shared q.1.threads i

theorem PhyPoint.Serves.isMonitor {i : Int} {p : PhyPoint} (h : p.Serves i) : p.isMonitor := by
  cases p with
  | monitorStart => rfl
  | monitorPoll j counter => rfl
  | monitorNotify j phyStatus => rfl
  | setTest pString => exact absurd h id
  | setMark pString => exact absurd h id
  | setCreate pString => exact absurd h id
  | monitorDone => exact absurd h id

/-- A thread takes the place of `p`, and serves what `p` would have served. -/
theorem WillServe.replace {s s' : PhyRequests} {p : PhyPoint} {own others : List PhyPoint}
    {i : Int} (h : WillServe s (p :: others) i)
    (hserves : p.Serves i → ∃ p' ∈ own, p'.Serves i)
    (hidle : p.isMonitor = false → (∀ p' ∈ own, p'.isMonitor = false) ∧
      (s.monitorPhyStatusAndNotify = true → s'.monitorPhyStatusAndNotify = true)) :
    WillServe s' (own ++ others) i := by
  rcases h with ⟨p₁,hmem,h₁⟩ | ⟨hflag,hnone⟩
  · rcases List.mem_cons.mp hmem with rfl | hother
    · obtain ⟨p',hown,hp'⟩ := hserves h₁
      exact .inl ⟨p',List.mem_append_left _ hown,hp'⟩
    · exact .inl ⟨p₁,List.mem_append_right _ hother,h₁⟩
  · obtain ⟨hp,hothers⟩ := List.forall_mem_cons.mp hnone
    obtain ⟨hown,hkept⟩ := hidle hp
    exact .inr ⟨hkept hflag,List.forall_mem_append.mpr ⟨hown,hothers⟩⟩

theorem WillServe.perm {s : PhyRequests} {ps ps' : List PhyPoint} {i : Int}
    (h : WillServe s ps i) (hperm : ps.Perm ps') : WillServe s ps' i := by
  rcases h with ⟨p,hmem,hp⟩ | ⟨hflag,hnone⟩
  · exact .inl ⟨p,hperm.mem_iff.mp hmem,hp⟩
  · exact .inr ⟨hflag,fun p hp => hnone p (hperm.mem_iff.mpr hp)⟩

theorem AwaitedServed.enter {q : PhyConf × List PhyEvent} (h : AwaitedServed q)
    (pString : Text) : AwaitedServed (stepLog phyProgram q (.enter pString)) := by
  have ho : outcome phyProgram q.1 (.enter pString) =
      some (requestPhyStatus q.1.shared pString) := rfl
  rw [stepLog_some ho]
  intro i hi
  unfold requestPhyStatus at hi ⊢
  split at hi <;> simp only [awaited_append,List.foldl_nil,List.foldl_cons,awaitedAfter] at hi
  · rename_i hfits
    simp only [hfits,dif_pos]
    rcases h i hi with ⟨p,hmem,hp⟩ | ⟨hflag,hnone⟩
    · exact .inl ⟨p,List.mem_append_right _ hmem,hp⟩
    · refine .inr ⟨hflag,List.forall_mem_append.mpr ⟨?_,hnone⟩⟩
      simp [PhyPoint.isMonitor]
  · rename_i hlong
    simp only [hlong,dif_neg,not_false_iff]
    exact h i hi

/-- What a section leaves of the wait: either no request is accepted in it and
nobody is notified, or the section is in time. -/
theorem AwaitedServed.resume {q : PhyConf × List PhyEvent} (h : AwaitedServed q) {k : Nat}
    {p : PhyPoint} {a : PhyAnswers} (hk : q.1.threads[k]? = some p)
    (hc : RequestsInTime q (.resume k a)) :
    AwaitedServed (stepLog phyProgram q (.resume k a)) := by
  have ho : outcome phyProgram q.1 (.resume k a) = some (phyResume q.1.shared p a) :=
    outcome_resume hk
  have hin := hc p hk
  have hserve : ∀ i, awaited q.2 = some i →
      WillServe q.1.shared (p :: rest q.1 (.resume k a : PhyStep)) i :=
    fun i hi => (h i hi).perm (threads_perm a hk)
  rw [stepLog_some ho]
  intro i hi
  cases p with
  | setTest pString =>
    cases hflag : q.1.shared.monitorPhyStatusAndNotify with
    | true =>
      simp only [phyResume,hflag,if_true] at hi ⊢
      rw [awaited_append,List.foldl_cons,List.foldl_nil,awaitedAfter] at hi
      obtain rfl := Option.some_inj.mp hi
      exact hin hflag
    | false =>
      simp only [phyResume,hflag,Bool.false_eq_true,if_false,List.append_nil] at hi ⊢
      exact (hserve i hi).replace (fun hs => absurd hs id)
        fun _ => ⟨by simp [PhyPoint.isMonitor],id⟩
  | setMark pString =>
    simp only [phyResume,List.append_nil] at hi ⊢
    exact (hserve i hi).replace (fun hs => absurd hs id)
      fun _ => ⟨by simp [PhyPoint.isMonitor],fun _ => rfl⟩
  | setCreate pString =>
    simp only [phyResume] at hi ⊢
    rw [awaited_append,List.foldl_cons,List.foldl_nil,awaitedAfter] at hi
    obtain rfl := Option.some_inj.mp hi
    cases hcreated : a.created with
    | true => exact .inl ⟨.monitorStart,List.mem_cons_self,trivial⟩
    | false => exact hin hcreated
  | monitorStart =>
    simp only [phyResume,List.append_nil] at hi ⊢
    rcases hin with hnone | hsame
    · exact absurd hi (by simp [hnone])
    · rw [hsame] at hi
      exact .inl ⟨_,List.mem_cons_self,Option.some_inj.mp hi⟩
  | monitorPoll j counter =>
    have hnext : ∃ p', phyResume q.1.shared (.monitorPoll j counter) a = ⟨q.1.shared,[p'],[]⟩ ∧
        (j = i → p'.Serves i) := by
      simp only [phyResume]
      split_ifs
      · exact ⟨_,rfl,id⟩
      · exact ⟨_,rfl,id⟩
      · exact ⟨_,rfl,id⟩
      · exact ⟨_,rfl,id⟩
    obtain ⟨p',heq,hp'⟩ := hnext
    rw [heq,List.append_nil] at hi
    rw [heq]
    exact (hserve i hi).replace (fun hs => ⟨p',List.mem_cons_self,hp' hs⟩)
      fun hidle => absurd hidle (by simp [PhyPoint.isMonitor])
  | monitorNotify j phyStatus =>
    have hold : awaited q.2 = some i ∧ j ≠ i := by
      simp only [phyResume] at hi
      cases ht : a.taken with
      | true =>
        simp only [ht,if_true,awaited_append,List.foldl_cons,List.foldl_nil,awaitedAfter] at hi
        split_ifs at hi with hj
        exact ⟨hi,fun hji => hj (hji ▸ hi)⟩
      | false =>
        simp only [ht,Bool.false_eq_true,if_false,List.append_nil] at hi
        have hne := hin.resolve_left (by simp [ht])
        exact ⟨hi,fun hji => hne (hji ▸ hi)⟩
    exact (hserve i hold.1).replace (fun hs => absurd hs hold.2)
      fun hidle => absurd hidle (by simp [PhyPoint.isMonitor])
  | monitorDone =>
    simp only [phyResume,List.append_nil] at hi ⊢
    exact (hserve i hi).replace (fun hs => absurd hs id)
      fun hidle => absurd hidle (by simp [PhyPoint.isMonitor])

theorem AwaitedServed.step {q : PhyConf × List PhyEvent} (h : AwaitedServed q) {ev : PhyStep}
    (hc : RequestsInTime q ev) : AwaitedServed (stepLog phyProgram q ev) := by
  cases ev with
  | enter pString => exact h.enter pString
  | resume k a => exact stepLog_resume_inv (J := AwaitedServed) h fun p hk => h.resume hk hc

theorem AwaitedServed.requestServed {q : PhyConf × List PhyEvent} (h : AwaitedServed q) :
    RequestServed q := by
  intro hidle hflag
  cases hi : awaited q.2 with
  | none => exact lastServed_of_awaited hi
  | some i =>
    rcases h i hi with ⟨p,hmem,hp⟩ | ⟨hset,-⟩
    · exact absurd hp.isMonitor (by simp [hidle p hmem])
    · exact absurd hset (by simp [hflag])

/-- In every run whose requests are in time, the last accepted request has been
served whenever no thread is at work. -/
theorem last_request_served {s : PhyRequests} {steps : List PhyStep}
    (h : Meets (stepLog phyProgram) RequestsInTime (⟨s,[]⟩,[]) steps) :
    Always (stepLog phyProgram) RequestServed (⟨s,[]⟩,[]) steps :=
  always_of_meets (J := AwaitedServed) (fun _ hi => absurd hi (Option.some_ne_none _).symm)
    (fun _ _ h hc => h.step hc) (fun _ h => h.requestServed) h

def phyWorks : PhyAnswers where
  created := true
  ethoff := false
  linkStatus := true
  taken := true

def noRequests : PhyRequests where
  wanInstanceNumber := ⟨[],by decide⟩
  monitorPhyStatusAndNotify := false

/-- A request for instance 1, and another for instance 2 when the thread of the
first has made so many steps. -/
def requestSteps (n : Nat) : List PhyStep :=
  .enter ['1'] :: List.replicate (3+n) (.resume 0 phyWorks) ++ .enter ['2'] ::
    List.replicate 5 (.resume 0 phyWorks)

theorem last_request_served_before_start :
    Meets (stepLog phyProgram) RequestsInTime (⟨noRequests,[]⟩,[]) (requestSteps 0) ∧
      Always (stepLog phyProgram) RequestServed (⟨noRequests,[]⟩,[]) (requestSteps 0) :=
  ⟨by decide +kernel,last_request_served (by decide +kernel)⟩

/-- The second request comes when the thread has read the instance of the first. -/
theorem request_after_start_is_lost :
    ¬ Always (stepLog phyProgram) RequestServed (⟨noRequests,[]⟩,[]) (requestSteps 1) := by
  intro h
  obtain ⟨phyStatus,hmem⟩ := h.last (by decide +kernel) (by decide +kernel)
    [.accepted ['1']] ['2'] [.notified 1 true] (by decide +kernel) (by simp)
  simp [instanceNumber,atoi,digitsValue,isSpace] at hmem

end EthAgent
