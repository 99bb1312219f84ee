import EthAgent.PortSections

/-!
The way of a link event to the WAN manager: `CosaDmlEthPortLinkStatusCallback`
stores the status under the mutex, and sends it to the event queue after it has
released the mutex; `CosaDmlEthEventHandlerThread` takes messages off the queue.
-/

set_option autoImplicit false

namespace EthAgent
open CString Packed Runs Interleaving

structure WanData where
  name : Buf 64
  linkStatus : LinkStatus
  deriving DecidableEq

/-- `handling` is the message that the event handler has received and not yet
handed to the WAN manager. -/
structure LinkQueue where
  ports : PortTable
  queue : List WanData
  handling : Option WanData

inductive LinkQueueCall where
  | linkStatusCallback (ifname state : Option Text)
  | eventHandler

inductive CallbackPoint where
  | store (ifIndex : Nat) (linkStatus : LinkStatus)
  | send (msg : WanData)
  deriving DecidableEq

/-- A status stored in the record of an interface, one given to
`CosaDmlEthSetPhyStatusForWanManager`, and one that could not be sent. -/
inductive LinkQueueEvent where
  | stored (ifname : Text) (linkStatus : LinkStatus)
  | delivered (ifname : Text) (linkStatus : LinkStatus)
  | dropped (ifname : Text) (linkStatus : LinkStatus)
  deriving DecidableEq

abbrev LinkQueueOutcome := Outcome LinkQueue CallbackPoint LinkQueueEvent

def maxQueueLength : Nat := 100

def eventHandler (s : LinkQueue) : LinkQueueOutcome :=
  match s.handling with
  | some msg => ⟨{ s with handling := none },[],[.delivered msg.name.text msg.linkStatus]⟩
  | none =>
    match s.queue with
    | [] => ⟨s,[],[]⟩
    | msg :: queue => ⟨{ s with queue := queue, handling := some msg },[],[]⟩

def linkQueueEnter (s : LinkQueue) : LinkQueueCall → LinkQueueOutcome
  | .linkStatusCallback ifname state =>
    match state,cosaDmlEthPortGetIndexFromIfName s.ports ifname with
    | some state,some ifIndex => ⟨s,[.store ifIndex (linkStatusOfState state)],[]⟩
    | _,_ => ⟨s,[],[]⟩
  | .eventHandler => eventHandler s

/-- The answer says whether `mq_open` and `mq_send` succeed; `mq_send` waits while the
queue is full. -/
def linkQueueResume (s : LinkQueue) (point : CallbackPoint) (sent : Bool) : LinkQueueOutcome :=
  match point with
  | .store ifIndex linkStatus =>
    match s.ports.records[ifIndex]? with
    | none => ⟨s,[],[]⟩
    | some r =>
      ⟨{ s with
          ports := s.ports.modifyRecord ifIndex fun r => { r with linkStatus := linkStatus } },
        [.send ⟨Buf.store r.name.text,linkStatus⟩],[.stored r.name.text linkStatus]⟩
  | .send msg =>
    if sent then
      if s.queue.length < maxQueueLength then ⟨{ s with queue := s.queue ++ [msg] },[],[]⟩
      else ⟨s,[.send msg],[]⟩
    else ⟨s,[],[.dropped msg.name.text msg.linkStatus]⟩

def linkQueueProgram : Program LinkQueue CallbackPoint LinkQueueCall Bool LinkQueueEvent where
  enter := linkQueueEnter
  resume := linkQueueResume

abbrev LinkQueueConf := Conf LinkQueue CallbackPoint
abbrev LinkQueueStep := Event LinkQueueCall Bool

def deliveredFor (x : Text) : LinkQueueEvent → Option LinkStatus
  | .delivered ifname linkStatus => if ifname = x then some linkStatus else none
  | _ => none

def LinkQueueConf.Drained (c : LinkQueueConf) : Prop :=
  c.threads = [] ∧ c.shared.queue = [] ∧ c.shared.handling = none

/-- Once drained, each interface with a stored status has the one in its record
delivered last. -/
def DeliveryAgrees (q : LinkQueueConf × List LinkQueueEvent) : Prop :=
  LinkQueueConf.Drained q.1 → ∀ x linkStatus, .stored x linkStatus ∈ q.2 →
    ∃ record, cosaDmlEthPortGetCopyOfGlobalInfoForGivenIfName q.1.shared.ports (some x) =
      some record ∧ lastOf (deliveredFor x) q.2 = some record.linkStatus

/-- The message carries what the record of its interface holds. -/
def WanData.Current (msg : WanData) (t : PortTable) : Prop :=
  (cosaDmlEthPortGetCopyOfGlobalInfoForGivenIfName t (some msg.name.text)).map
    PortRecord.linkStatus = some msg.linkStatus

instance (msg : WanData) (t : PortTable) : Decidable (msg.Current t) :=
  inferInstanceAs (Decidable (_ = _))

/-- The thread has still to send what the record of the interface holds. -/
def CallbackPoint.Brings (t : PortTable) (name : Buf 64) : CallbackPoint → Prop
  | .send msg => msg.name = name ∧ msg.Current t
  | .store _ _ => False

instance (t : PortTable) (name : Buf 64) : DecidablePred (CallbackPoint.Brings t name)
  | .send _ => inferInstanceAs (Decidable (_ ∧ _))
  | .store _ _ => .isFalse id

/-- A status that the record no longer holds is sent, and one that it does hold is
dropped, only while another callback, with the status that it holds, has still to send.
A message has room for the name of the record. -/
def CallbackPoint.MaySend (s : LinkQueue) (others : List CallbackPoint) (sent : Bool) :
    CallbackPoint → Prop
  | .send msg =>
    (msg.Current s.ports ↔ sent = true) ∨ (sent = true ∧ maxQueueLength ≤ s.queue.length) ∨
      ∃ point ∈ others, point.Brings s.ports msg.name
  | .store ifIndex _ => ∀ r ∈ s.ports.records[ifIndex]?, r.name.text.length < 64

instance (s : LinkQueue) (others : List CallbackPoint) (sent : Bool) :
    DecidablePred (CallbackPoint.MaySend s others sent)
  | .send _ => inferInstanceAs (Decidable (_ ∨ _))
  | .store _ _ => inferInstanceAs (Decidable (∀ _ ∈ _, _))

def SendsInOrder (q : LinkQueueConf × List LinkQueueEvent) : LinkQueueStep → Prop
  | .enter _ => True
  | .resume k sent =>
    ∀ point ∈ q.1.threads[k]?,
      point.MaySend q.1.shared (rest q.1 (.resume k sent : LinkQueueStep)) sent

instance (q : LinkQueueConf × List LinkQueueEvent) : DecidablePred (SendsInOrder q)
  | .enter _ => .isTrue trivial
  | .resume _ _ => inferInstanceAs (Decidable (∀ _ ∈ _, _))

def statusFor (x : Text) (msg : WanData) : Option LinkStatus :=
  if msg.name.text = x then some msg.linkStatus else none

def sentFor (x : Text) (s : LinkQueue) (log : List LinkQueueEvent) : Option LinkStatus :=
  (lastOf (statusFor x) (s.handling.toList ++ s.queue)).or (lastOf (deliveredFor x) log)

/-- The status in the record is the last one sent, or a callback has still to send it. -/
def Announces (q : LinkQueueConf × List LinkQueueEvent) (x : Text) (record : PortRecord) :
    Prop :=
  (∃ msg, .send msg ∈ q.1.threads ∧ msg.name.text = x ∧ msg.linkStatus = record.linkStatus) ∨
    sentFor x q.1.shared q.2 = some record.linkStatus

structure InOrder (q : LinkQueueConf × List LinkQueueEvent) : Prop where
  found : ∀ i linkStatus, .store i linkStatus ∈ q.1.threads →
    ∃ x, cosaDmlEthPortGetIndexFromIfName q.1.shared.ports (some x) = some i
  announced : ∀ x linkStatus, .stored x linkStatus ∈ q.2 →
    ∃ record, cosaDmlEthPortGetCopyOfGlobalInfoForGivenIfName q.1.shared.ports (some x) =
      some record ∧ Announces q x record

theorem lastOf_silent {f : LinkQueueEvent → Option LinkStatus} {ev : LinkQueueEvent}
    (h : f ev = none) (log : List LinkQueueEvent) : lastOf f (log ++ [ev]) = lastOf f log := by
  rw [lastOf_append]
  simp [lastOf,h]

theorem sentFor_send (x : Text) (s : LinkQueue) (log : List LinkQueueEvent) (msg : WanData) :
    sentFor x { s with queue := s.queue ++ [msg] } log =
      (statusFor x msg).or (sentFor x s log) := by
  rw [sentFor,sentFor,← List.append_assoc,lastOf_append,Option.or_assoc]
  congr 1
  cases h : statusFor x msg <;> simp [lastOf,h]

/-- The event handler moves messages on, and changes nothing else. -/
theorem eventHandler_spec (s : LinkQueue) (log : List LinkQueueEvent) :
    (eventHandler s).threads = [] ∧ (eventHandler s).shared.ports = s.ports ∧
      (∀ x, sentFor x (eventHandler s).shared (log ++ (eventHandler s).events) =
        sentFor x s log) ∧
      ∀ x linkStatus, .stored x linkStatus ∉ (eventHandler s).events := by
  unfold eventHandler
  cases hh : s.handling with
  | some msg =>
    refine ⟨rfl,rfl,fun x => ?_,by simp⟩
    have hstatus : lastOf (deliveredFor x) [.delivered msg.name.text msg.linkStatus] =
        lastOf (statusFor x) [msg] := by
      by_cases hx : msg.name.text = x <;> simp [lastOf,deliveredFor,statusFor,hx]
    simp only [sentFor,hh,Option.toList_none,Option.toList_some,List.nil_append]
    rw [lastOf_append,lastOf_append,hstatus,Option.or_assoc]
  | none =>
    cases hq : s.queue with
    | nil => exact ⟨rfl,rfl,by simp,by simp⟩
    | cons msg queue =>
      exact ⟨rfl,rfl,fun x => by simp [sentFor,hh,hq],by simp⟩

theorem linkQueueEnter_callback (s : LinkQueue) (ifname state : Option Text) :
    linkQueueEnter s (.linkStatusCallback ifname state) = ⟨s,[],[]⟩ ∨
      ∃ i linkStatus x, cosaDmlEthPortGetIndexFromIfName s.ports (some x) = some i ∧
        linkQueueEnter s (.linkStatusCallback ifname state) = ⟨s,[.store i linkStatus],[]⟩ := by
  cases state with
  | none => exact .inl rfl
  | some state =>
    cases ifname with
    | none => exact .inl rfl
    | some x =>
      cases hi : cosaDmlEthPortGetIndexFromIfName s.ports (some x) with
      | none => exact .inl (by simp [linkQueueEnter,hi])
      | some i =>
        exact .inr ⟨i,linkStatusOfState state,x,hi,by simp [linkQueueEnter,hi]⟩

/-- The threads, the record and the status last sent for an interface decide whether
it is announced. -/
theorem Announces.mono {q q' : LinkQueueConf × List LinkQueueEvent} {x : Text}
    {record : PortRecord} (h : Announces q x record)
    (hthreads : ∀ msg, .send msg ∈ q.1.threads → .send msg ∈ q'.1.threads)
    (hsent : sentFor x q'.1.shared q'.2 = sentFor x q.1.shared q.2) :
    Announces q' x record := by
  rcases h with ⟨msg,hmem,hname,hstatus⟩ | hlast
  · exact .inl ⟨msg,hthreads msg hmem,hname,hstatus⟩
  · exact .inr (hsent.trans hlast)

theorem InOrder.enter {q : LinkQueueConf × List LinkQueueEvent} (h : InOrder q)
    (call : LinkQueueCall) : InOrder (stepLog linkQueueProgram q (.enter call)) := by
  have ho : outcome linkQueueProgram q.1 (.enter call) = some (linkQueueEnter q.1.shared call) :=
    rfl
  rw [stepLog_some ho]
  cases call with
  | linkStatusCallback ifname state =>
    rcases linkQueueEnter_callback q.1.shared ifname state with heq | ⟨i,linkStatus,x,hi,heq⟩
    · rw [heq,List.nil_append,List.append_nil]
      exact h
    · rw [heq,List.append_nil]
      refine ⟨fun j st hmem => ?_,fun y st hmem => ?_⟩
      · rcases List.mem_cons.mp hmem with heq' | hold
        · obtain ⟨rfl,rfl⟩ := CallbackPoint.store.inj heq'
          exact ⟨x,hi⟩
        · exact h.found j st hold
      · obtain ⟨record,hcopy,ha⟩ := h.announced y st hmem
        exact ⟨record,hcopy,ha.mono (fun _ hm => List.mem_cons_of_mem _ hm) rfl⟩
  | eventHandler =>
    obtain ⟨hthreads,hports,hsent,hstored⟩ := eventHandler_spec q.1.shared q.2
    simp only [linkQueueEnter,hthreads,List.nil_append]
    refine ⟨fun j st hmem => ?_,fun y st hmem => ?_⟩
    · rw [hports]
      exact h.found j st hmem
    · rw [hports]
      have hold := (List.mem_append.mp hmem).resolve_right (hstored y st)
      obtain ⟨record,hcopy,ha⟩ := h.announced y st hold
      exact ⟨record,hcopy,ha.mono (fun _ hm => hm) (hsent y)⟩

theorem InOrder.store {q : LinkQueueConf × List LinkQueueEvent} (h : InOrder q) {k i : Nat}
    {linkStatus : LinkStatus} {sent : Bool}
    (hk : q.1.threads[k]? = some (.store i linkStatus)) (hc : SendsInOrder q (.resume k sent)) :
    InOrder (stepLog linkQueueProgram q (.resume k sent)) := by
  obtain ⟨x,hi⟩ := h.found i linkStatus (List.mem_of_getElem? hk)
  obtain ⟨r,hr,rfl⟩ := record_of_index hi
  have hname := Buf.store_text_of_lt (hc _ hk r hr)
  have ho : outcome linkQueueProgram q.1 (.resume k sent) =
      some (linkQueueResume q.1.shared (.store i linkStatus) sent) := outcome_resume hk
  have hmem := fun point => mem_threads_iff (κ := LinkQueueCall) sent hk (q := point)
  let f : PortRecord → PortRecord := fun r => { r with linkStatus := linkStatus }
  have hnames : (q.1.shared.ports.modifyRecord i f).names = q.1.shared.ports.names :=
    names_modifyRecord _ _ fun _ => rfl
  rw [stepLog_some ho]
  simp only [linkQueueResume,hr,List.singleton_append]
  refine ⟨fun j st hj => ?_,fun y st hy => ?_⟩
  · have hold := (hmem _).mpr (.inr ((List.mem_cons.mp hj).resolve_left (by simp)))
    obtain ⟨z,hz⟩ := h.found j st hold
    exact ⟨z,(getIndexFromIfName_congr hnames z).trans hz⟩
  · by_cases hyx : y = r.name.text
    · subst hyx
      have hwritten := getCopy_modifyRecord (f := f) hi fun _ => rfl
      rw [getCopy_of_index hi,hr] at hwritten
      exact ⟨f r,hwritten,.inl ⟨⟨Buf.store r.name.text,linkStatus⟩,List.mem_cons_self,hname,rfl⟩⟩
    · have hold : LinkQueueEvent.stored y st ∈ q.2 := by
        simpa [hyx] using hy
      obtain ⟨record,hcopy,ha⟩ := h.announced y st hold
      have hne : cosaDmlEthPortGetIndexFromIfName q.1.shared.ports (some y) ≠ some i := by
        intro hyi
        obtain ⟨r',hr',hname'⟩ := record_of_index hyi
        rw [hr] at hr'
        obtain rfl := Option.some_inj.mp hr'
        exact hyx hname'.symm
      have hkept := getCopy_modifyRecord_of_ne (f := f) hne fun _ => rfl
      refine ⟨record,hkept.trans hcopy,?_⟩
      refine ha.mono (fun msg hm => ?_) ?_
      · exact List.mem_cons_of_mem _ (((hmem _).mp hm).resolve_left (by simp))
      · simp only [sentFor]
        rw [lastOf_silent rfl]

theorem announced_of_brings {t : PortTable} {others : List CallbackPoint} {name : Buf 64}
    {record : PortRecord} (hcopy : cosaDmlEthPortGetCopyOfGlobalInfoForGivenIfName t
      (some name.text) = some record) (h : ∃ point ∈ others, point.Brings t name) :
    ∃ msg, .send msg ∈ others ∧ msg.name.text = name.text ∧
      msg.linkStatus = record.linkStatus := by
  obtain ⟨point,hrest,hbrings⟩ := h
  cases point with
  | store i linkStatus => exact absurd hbrings id
  | send msg =>
    obtain ⟨hname,hcur⟩ := hbrings
    rw [WanData.Current,hname,hcopy,Option.map_some] at hcur
    exact ⟨msg,hrest,congrArg Buf.text hname,(Option.some_inj.mp hcur).symm⟩

theorem Announces.other {q : LinkQueueConf × List LinkQueueEvent} {k : Nat} (sent : Bool)
    {msg : WanData} (hk : q.1.threads[k]? = some (.send msg)) {x : Text} {record : PortRecord}
    (ha : Announces q x record)
    (hother : msg.name.text = x → msg.linkStatus ≠ record.linkStatus) :
    (∃ msg', .send msg' ∈ rest q.1 (.resume k sent : LinkQueueStep) ∧ msg'.name.text = x ∧
      msg'.linkStatus = record.linkStatus) ∨
    sentFor x q.1.shared q.2 = some record.linkStatus := by
  rcases ha with ⟨msg',hm,hname,hstatus⟩ | hlast
  · rcases (mem_threads_iff (κ := LinkQueueCall) sent hk).mp hm with heq | hrest
    · obtain rfl := CallbackPoint.send.inj heq
      exact absurd hstatus (hother hname)
    · exact .inl ⟨msg',hrest,hname,hstatus⟩
  · exact .inr hlast

/-- A message that goes out replaces the one sent last; what the record holds is
then the message, or that of the callback which is still to come. -/
theorem InOrder.sent {q : LinkQueueConf × List LinkQueueEvent} (h : InOrder q) {k : Nat}
    {msg : WanData} (hk : q.1.threads[k]? = some (.send msg))
    (hc : SendsInOrder q (.resume k true)) :
    InOrder (stepLog linkQueueProgram q (.resume k true)) := by
  have ho : outcome linkQueueProgram q.1 (.resume k true) =
      some (linkQueueResume q.1.shared (.send msg) true) := outcome_resume hk
  have hmem := fun point => mem_threads_iff (κ := LinkQueueCall) true hk (q := point)
  have hmay := hc _ hk
  rw [stepLog_some ho]
  by_cases hroom : q.1.shared.queue.length < maxQueueLength
  · simp only [linkQueueResume,hroom,if_true,List.nil_append,List.append_nil]
    refine ⟨fun j st hj => h.found j st ((hmem _).mpr (.inr hj)),fun y st hy => ?_⟩
    obtain ⟨record,hcopy,ha⟩ := h.announced y st hy
    refine ⟨record,hcopy,?_⟩
    by_cases hmsg : msg.name.text = y
    · subst hmsg
      rcases hmay with hcur | ⟨-,hfull⟩ | hbrings
      · have hcur := hcur.mpr rfl
        rw [WanData.Current,hcopy,Option.map_some] at hcur
        exact .inr (by rw [sentFor_send]; simpa [statusFor] using hcur.symm)
      · exact absurd hroom (Nat.not_lt.mpr hfull)
      · exact .inl (announced_of_brings hcopy hbrings)
    · have hsent : sentFor y { q.1.shared with queue := q.1.shared.queue ++ [msg] } q.2 =
          sentFor y q.1.shared q.2 := by
        rw [sentFor_send,statusFor,if_neg hmsg,Option.none_or]
      exact (ha.other true hk fun hname => absurd hname hmsg).imp id hsent.trans
  · simp only [linkQueueResume,hroom,if_true,if_false,List.append_nil,List.singleton_append]
    refine ⟨fun j st hj => ?_,fun y st hy => ?_⟩
    · exact h.found j st ((hmem _).mpr (List.mem_cons.mp hj))
    · obtain ⟨record,hcopy,ha⟩ := h.announced y st hy
      exact ⟨record,hcopy,ha.mono (fun _ hm => List.mem_cons.mpr ((hmem _).mp hm)) rfl⟩

theorem InOrder.dropped {q : LinkQueueConf × List LinkQueueEvent} (h : InOrder q) {k : Nat}
    {msg : WanData} (hk : q.1.threads[k]? = some (.send msg))
    (hc : SendsInOrder q (.resume k false)) :
    InOrder (stepLog linkQueueProgram q (.resume k false)) := by
  have ho : outcome linkQueueProgram q.1 (.resume k false) =
      some (linkQueueResume q.1.shared (.send msg) false) := outcome_resume hk
  have hmem := fun point => mem_threads_iff (κ := LinkQueueCall) false hk (q := point)
  rw [stepLog_some ho]
  refine ⟨fun j st hj => h.found j st ((hmem _).mpr (.inr hj)),fun y st hy => ?_⟩
  have hold : LinkQueueEvent.stored y st ∈ q.2 := by
    simpa [linkQueueResume] using hy
  obtain ⟨record,hcopy,ha⟩ := h.announced y st hold
  refine ⟨record,hcopy,?_⟩
  have hsent : sentFor y q.1.shared (q.2 ++ [.dropped msg.name.text msg.linkStatus]) =
      sentFor y q.1.shared q.2 := by
    simp only [sentFor]
    rw [lastOf_silent rfl]
  by_cases hneeded : msg.name.text = y ∧ msg.linkStatus = record.linkStatus
  · obtain ⟨rfl,hstatus⟩ := hneeded
    have hcur : msg.Current q.1.shared.ports := by
      rw [WanData.Current,hcopy,Option.map_some,hstatus]
    rcases hc _ hk with hnot | ⟨hsend,-⟩ | hbrings
    · exact absurd (hnot.mp hcur) (by simp)
    · exact absurd hsend (by simp)
    · exact .inl (announced_of_brings hcopy hbrings)
  · exact (ha.other false hk fun hname hstatus => hneeded ⟨hname,hstatus⟩).imp id hsent.trans

theorem InOrder.step {q : LinkQueueConf × List LinkQueueEvent} (h : InOrder q)
    {ev : LinkQueueStep} (hc : SendsInOrder q ev) : InOrder (stepLog linkQueueProgram q ev) := by
  cases ev with
  | enter call => exact h.enter call
  | resume k sent =>
    refine stepLog_resume_inv (J := InOrder) h fun point hk => ?_
    cases point with
    | store i linkStatus => exact h.store hk hc
    | send msg =>
      cases sent with
      | true => exact h.sent hk hc
      | false => exact h.dropped hk hc

theorem InOrder.deliveryAgrees {q : LinkQueueConf × List LinkQueueEvent} (h : InOrder q) :
    DeliveryAgrees q := by
  rintro ⟨hthreads,hqueue,hhandling⟩ x linkStatus hstored
  obtain ⟨record,hcopy,ha⟩ := h.announced x linkStatus hstored
  refine ⟨record,hcopy,?_⟩
  rcases ha with ⟨msg,hmem,-⟩ | hlast
  · rw [hthreads] at hmem
    exact absurd hmem List.not_mem_nil
  · simpa [sentFor,hqueue,hhandling,lastOf] using hlast

/-- In every run in which the callbacks send in order, the status delivered last
agrees with the record whenever all callbacks have returned and the queue is
drained. -/
theorem delivery_agrees {t : PortTable} {steps : List LinkQueueStep}
    (h : Meets (stepLog linkQueueProgram) SendsInOrder (⟨⟨t,[],none⟩,[]⟩,[]) steps) :
    Always (stepLog linkQueueProgram) DeliveryAgrees (⟨⟨t,[],none⟩,[]⟩,[]) steps :=
  always_of_meets (J := InOrder)
    ⟨fun _ _ h => absurd h List.not_mem_nil,fun _ _ h => absurd h List.not_mem_nil⟩
    (fun _ _ h hc => h.step hc) (fun _ h => h.deliveryAgrees) h

def fourPortQueue : LinkQueueConf :=
  ⟨⟨(cosaDmlEthPortInit fourPorts unconfigured).ports,[],none⟩,[]⟩

/-- `eth0` goes up and down again; each of the two callbacks stores, and then they
send in the order given. -/
def flapSteps (first : Nat) : List LinkQueueStep :=
  [.enter (.linkStatusCallback (some "eth0".toList) (some "Up".toList)),
    .enter (.linkStatusCallback (some "eth0".toList) (some "Down".toList)),
    .resume 1 true,.resume 1 true,.resume first true,.resume 0 true,
    .enter .eventHandler,.enter .eventHandler,.enter .eventHandler,.enter .eventHandler]

theorem delivery_agrees_sent_in_order :
    Meets (stepLog linkQueueProgram) SendsInOrder (fourPortQueue,[]) (flapSteps 1) ∧
      Always (stepLog linkQueueProgram) DeliveryAgrees (fourPortQueue,[]) (flapSteps 1) :=
  ⟨by decide +kernel,delivery_agrees (by decide +kernel)⟩

/-- The callback that stored last sends first. -/
theorem sends_overtake_stores :
    ¬ Always (stepLog linkQueueProgram) DeliveryAgrees (fourPortQueue,[]) (flapSteps 0) := by
  intro h
  obtain ⟨record,hcopy,hlast⟩ := h.last ⟨by decide +kernel,by decide +kernel,by decide +kernel⟩
    "eth0".toList .up (by decide +kernel)
  have hdown : (cosaDmlEthPortGetCopyOfGlobalInfoForGivenIfName
      (exec (stepLog linkQueueProgram) (fourPortQueue,[]) (flapSteps 0)).1.shared.ports
      (some "eth0".toList)).map PortRecord.linkStatus = some .down := by
    decide +kernel
  have hup : lastOf (deliveredFor "eth0".toList)
      (exec (stepLog linkQueueProgram) (fourPortQueue,[]) (flapSteps 0)).2 = some .up := by
    decide +kernel
  rw [hcopy,Option.map_some,Option.some_inj] at hdown
  rw [hup,hdown] at hlast
  exact absurd hlast (by decide)

end EthAgent
