import EthAgent.Lib.CString
import EthAgent.Lib.CondVar
import EthAgent.Lib.Interleaving

/-!
The simulation of a WAN link that is down. A Set of `LinkDown` creates a thread
`Wan_Failover_Simulation`, which sleeps on `LinkdownCond` until the Set of the other
value signals it, or for as long as `LinkDownTimeout` says.
-/

set_option autoImplicit false

namespace EthAgent
open Runs Interleaving

/-- `ethAgent_Link_Status`, and whether `Linkdownlock` is held. -/
structure LinkDownStatus where
  eWanLinkDown : Bool
  eWanLinkDownTimeout : Nat
  linkdownlock : Bool
  deriving DecidableEq

inductive LinkDownCall where
  | setLinkDown (bValue : Bool)
  | setLinkDownTimeout (uValue : Nat)

/-- Where a Set, or a simulation thread, is. A thread is `simStranded` if it sleeps
on `LinkdownCond` as it was before a later thread has initialised it again. -/
inductive SimPoint where
  | setStore (bValue : Bool)
  | setSignal (bValue : Bool)
  | setCreate
  | setWake
  | simCreated
  | simLock
  | simLocked
  | simTest
  | simWait (limited : Bool)
  | simAsleep (limited : Bool)
  | simStranded (limited : Bool)
  | simWoken (limited : Bool)
  | simReset
  | simUp
  deriving DecidableEq

/-- What the environment answers in a section: whether `pthread_create` succeeds,
whether a sleeping thread wakes by itself, at its time or spuriously, and which of
the sleeping threads a signal wakes. -/
structure SimAnswers where
  created : Bool
  wakes : Bool
  woken : Nat

inductive SimEvent where
  | returned (accepted : Bool)
  | linkDown
  | linkUp
  deriving DecidableEq

abbrev SimOutcome := Outcome LinkDownStatus SimPoint SimEvent

def linkDownEnter (s : LinkDownStatus) : LinkDownCall → SimOutcome
  | .setLinkDown bValue =>
    if s.eWanLinkDown = bValue then ⟨s,[],[.returned false]⟩ else ⟨s,[.setStore bValue],[]⟩
  | .setLinkDownTimeout uValue =>
    if s.eWanLinkDownTimeout = uValue then ⟨s,[],[.returned false]⟩
    else ⟨{ s with eWanLinkDownTimeout := uValue },[],[.returned true]⟩

def linkDownResume (s : LinkDownStatus) (point : SimPoint) (a : SimAnswers) : SimOutcome :=
  match point with
  | .setStore bValue => ⟨{ s with eWanLinkDown := bValue },[.setSignal bValue],[]⟩
  | .setSignal _ => ⟨s,[if s.eWanLinkDown then .setCreate else .setWake],[]⟩
  | .setCreate => ⟨s,if a.created then [.simCreated] else [],[.returned true]⟩
  | .setWake => ⟨s,[],[.returned true]⟩
  | .simCreated => ⟨s,[.simLock],[]⟩
  | .simLock =>
    if s.linkdownlock then ⟨s,[.simLock],[]⟩
    else ⟨{ s with linkdownlock := true },[.simLocked],[]⟩
  | .simLocked => ⟨s,[.simTest],if s.eWanLinkDown then [.linkDown] else []⟩
  | .simTest => ⟨s,[.simWait (s.eWanLinkDownTimeout ≠ 0)],[]⟩
  | .simWait limited => ⟨{ s with linkdownlock := false },[.simAsleep limited],[]⟩
  | .simAsleep limited => ⟨s,[if a.wakes then .simWoken limited else .simAsleep limited],[]⟩
  | .simStranded limited => ⟨s,[if a.wakes then .simWoken limited else .simStranded limited],[]⟩
  | .simWoken limited =>
    if s.linkdownlock then ⟨s,[.simWoken limited],[]⟩
    else ⟨{ s with linkdownlock := true },[if limited then .simReset else .simUp],[]⟩
  | .simReset => ⟨{ s with eWanLinkDown := false },[.simUp],[]⟩
  | .simUp => ⟨{ s with linkdownlock := false },[],[.linkUp]⟩

def linkDownProgram : Program LinkDownStatus SimPoint LinkDownCall SimAnswers SimEvent where
  enter := linkDownEnter
  resume := linkDownResume

abbrev SimConf := Conf LinkDownStatus SimPoint
abbrev SimStep := Event LinkDownCall SimAnswers

def SimPoint.wakes : SimPoint → Option SimPoint
  | .simAsleep limited => some (.simWoken limited)
  | _ => none

def SimPoint.strand : SimPoint → SimPoint
  | .simAsleep limited => .simStranded limited
  | p => p

/-- What a section does to `LinkdownCond`: `setWake` signals it, after it has tested
`EWanLinkDown` once more, and `simCreated` initialises it. -/
def condEffect (s : LinkDownStatus) (a : SimAnswers) : SimPoint → List SimPoint → List SimPoint
  | .setWake => if s.eWanLinkDown then id else CondVar.signal SimPoint.wakes a.woken
  | .simCreated => List.map SimPoint.strand
  | _ => id

def linkDownStep (c : SimConf) (ev : SimStep) : SimConf × List SimEvent :=
  let next := step linkDownProgram c ev
  match ev with
  | .enter _ => next
  | .resume k a =>
    match c.threads[k]? with
    | none => next
    | some p => (⟨next.1.shared,condEffect c.shared a p next.1.threads⟩,next.2)

def SimPoint.isSet : SimPoint → Bool
  | .setStore _ => true
  | .setSignal _ => true
  | .setCreate => true
  | .setWake => true
  | _ => false

def SimPoint.isBlocked : SimPoint → Bool
  | .simAsleep limited => !limited
  | .simStranded limited => !limited
  | _ => false

/-- No thread stays blocked once `EWanLinkDown` is false and every Set has returned. -/
def NoneForgotten (c : SimConf) : Prop :=
  c.shared.eWanLinkDown = false → (∀ p ∈ c.threads, p.isSet = false) →
    ∀ p ∈ c.threads, p.isBlocked = false

/-- A simulation thread that has been created and does not sleep yet. -/
def SimPoint.onTheWay : SimPoint → Bool
  | .simCreated => true
  | .simLock => true
  | .simLocked => true
  | .simTest => true
  | .simWait _ => true
  | _ => false

def SimPoint.isStranded : SimPoint → Bool
  | .simStranded _ => true
  | _ => false

def SimPoint.maySleep (p : SimPoint) : Bool :=
  p.onTheWay || CondVar.asleep SimPoint.wakes p || p.isStranded || p = .setCreate

/-- When a thread at a point may go on, beside the others. -/
def SimPoint.InTurn (s : LinkDownStatus) (others : List SimPoint) : SimPoint → Prop
  | .setWake => s.eWanLinkDown = false → ∀ p ∈ others, p.onTheWay = false
  | .simReset => ∀ p ∈ others, p.maySleep = false
  | _ => True

instance (s : LinkDownStatus) (others : List SimPoint) : DecidablePred (SimPoint.InTurn s others)
  | .setWake => inferInstanceAs (Decidable (_ → _))
  | .simReset => inferInstanceAs (Decidable (∀ _ ∈ _, _))
  | .setStore _ | .setSignal _ | .setCreate | .simCreated | .simLock | .simLocked | .simTest
  | .simWait _ | .simAsleep _ | .simStranded _ | .simWoken _ | .simUp => .isTrue trivial

/-- Sets come one at a time, one signals only while no simulation is still on its way
to sleep, and a simulation that ends by its limit resets `EWanLinkDown` only while
there is no other. -/
def SimsInTurn (c : SimConf) : SimStep → Prop
  | .enter (.setLinkDown bValue) =>
    c.shared.eWanLinkDown ≠ bValue → ∀ p ∈ c.threads, p.isSet = false
  | .enter (.setLinkDownTimeout _) => True
  | .resume k a =>
    ∀ p ∈ c.threads[k]?, p.InTurn c.shared (rest c (.resume k a : SimStep))

instance (c : SimConf) : DecidablePred (SimsInTurn c)
  | .enter (.setLinkDown _) => inferInstanceAs (Decidable (_ → _))
  | .enter (.setLinkDownTimeout _) => .isTrue trivial
  | .resume _ _ => inferInstanceAs (Decidable (∀ _ ∈ _, _))

def SimPoint.willSignal : SimPoint → Bool
  | .setSignal bValue => !bValue
  | .setWake => true
  | _ => false

/-- A Set that may yet decide to create a simulation. -/
def SimPoint.willStart : SimPoint → Bool
  | .setStore bValue => bValue
  | .setSignal bValue => bValue
  | _ => false

theorem SimPoint.isSet_of_willSignal {p : SimPoint} (h : p.willSignal) : p.isSet := by
  cases p <;> first | rfl | exact absurd h (by simp [SimPoint.willSignal])

theorem SimPoint.not_willSignal {p : SimPoint} (h : p.isSet = false) : p.willSignal = false :=
  Bool.eq_false_of_not_eq_true fun hsignal =>
    Bool.false_ne_true (h.symm.trans (SimPoint.isSet_of_willSignal hsignal))

theorem SimPoint.isSet_of_willStart {p : SimPoint} (h : p.willStart) : p.isSet := by
  cases p <;> first | rfl | exact absurd h (by simp [SimPoint.willStart])

theorem SimPoint.maySleep_of_isBlocked {p : SimPoint} (h : p.isBlocked) : p.maySleep := by
  cases p with
  | simAsleep limited => rfl
  | simStranded limited => rfl
  | _ => exact absurd h (by simp [SimPoint.isBlocked])

/-- What holds while everything comes in turn. There is one Set and one simulation at
most, and no simulation sleeps or will sleep unless `EWanLinkDown` is true or it will
be signalled. -/
structure SimsOrdered (c : SimConf) : Prop where
  oneSet : c.threads.countP SimPoint.isSet ≤ 1
  oneSleep : c.threads.countP SimPoint.maySleep ≤ 1
  reachable : ∀ p ∈ c.threads, p.isStranded = false
  idle : c.shared.eWanLinkDown = false → (∀ p ∈ c.threads, p.willSignal = false) →
    c.threads.countP SimPoint.maySleep = 0
  starts : ∀ p ∈ c.threads, p.willStart → c.threads.countP SimPoint.maySleep = 0
  signals : ∀ p ∈ c.threads, p.willSignal → c.shared.eWanLinkDown = false

variable {c : SimConf} {s : LinkDownStatus} {p q : SimPoint} {l others : List SimPoint}

theorem SimsOrdered.ofSet (hsets : ∀ p ∈ others, p.isSet = false)
    (hreach : ∀ p ∈ q :: others, p.isStranded = false)
    (hone : (q :: others).countP SimPoint.maySleep ≤ 1)
    (hidle : s.eWanLinkDown = false → q.willSignal = false →
      (q :: others).countP SimPoint.maySleep = 0)
    (hstarts : q.willStart → (q :: others).countP SimPoint.maySleep = 0)
    (hsignals : q.willSignal → s.eWanLinkDown = false) : SimsOrdered ⟨s,q :: others⟩ where
  oneSet := by
    have hnone : others.countP SimPoint.isSet = 0 :=
      List.countP_eq_zero.mpr fun p hp => by simp [hsets p hp]
    rw [List.countP_cons,hnone]
    split <;> omega
  oneSleep := hone
  reachable := hreach
  idle hflag hsignal := hidle hflag (hsignal q List.mem_cons_self)
  starts p hp h := by
    rcases List.mem_cons.mp hp with rfl | hother
    · exact hstarts h
    · exact absurd (SimPoint.isSet_of_willStart h) (by simp [hsets p hother])
  signals p hp h := by
    rcases List.mem_cons.mp hp with rfl | hother
    · exact hsignals h
    · exact absurd (SimPoint.isSet_of_willSignal h) (by simp [hsets p hother])

theorem SimsOrdered.ofNoSet (hsets : ∀ p ∈ others, p.isSet = false)
    (hreach : ∀ p ∈ others, p.isStranded = false)
    (hone : others.countP SimPoint.maySleep ≤ 1)
    (hidle : s.eWanLinkDown = false → others.countP SimPoint.maySleep = 0) :
    SimsOrdered ⟨s,others⟩ where
  oneSet := by
    rw [List.countP_eq_zero.mpr fun p hp => by simp [hsets p hp]]
    exact Nat.zero_le 1
  oneSleep := hone
  reachable := hreach
  idle hflag _ := hidle hflag
  starts p hp h := absurd (SimPoint.isSet_of_willStart h) (by simp [hsets p hp])
  signals p hp h := absurd (SimPoint.isSet_of_willSignal h) (by simp [hsets p hp])

theorem SimsOrdered.simulate (h : SimsOrdered c) (hperm : c.threads.Perm (p :: others))
    (hflag : s.eWanLinkDown = c.shared.eWanLinkDown) (hp : p.isSet = false)
    (hown : ∀ p' ∈ l, p'.isSet = false ∧ p'.isStranded = false)
    (hsleep : l.countP SimPoint.maySleep ≤ if p.maySleep then 1 else 0) :
    SimsOrdered ⟨s,l ++ others⟩ := by
  have hcount := fun f => hperm.countP_eq (p := f)
  simp only [List.countP_cons] at hcount
  have hmem : ∀ p' ∈ others, p' ∈ c.threads :=
    fun p' hp' => hperm.mem_iff.mpr (List.mem_cons_of_mem p hp')
  have hsleeps : (l ++ others).countP SimPoint.maySleep ≤
      c.threads.countP SimPoint.maySleep := by
    rw [List.countP_append,hcount]
    omega
  have hsets : l.countP SimPoint.isSet = 0 :=
    List.countP_eq_zero.mpr fun p' hp' => by simp [(hown p' hp').1]
  have hnosignal : ∀ p' ∈ c.threads, p'.willSignal → p' ∈ others := by
    intro p' hp' hsignal
    rcases List.mem_cons.mp (hperm.mem_iff.mp hp') with rfl | hother
    · exact absurd (SimPoint.isSet_of_willSignal hsignal) (by simp [hp])
    · exact hother
  refine ⟨?_,hsleeps.trans h.oneSleep,?_,fun hf hno => ?_,fun p' hp' hstart => ?_,
    fun p' hp' hsignal => ?_⟩
  · rw [List.countP_append,hsets,Nat.zero_add]
    exact (Nat.le_add_right _ _).trans ((hcount _).symm.le.trans h.oneSet)
  · exact List.forall_mem_append.mpr ⟨fun p' hp' => (hown p' hp').2,
      fun p' hp' => h.reachable p' (hmem p' hp')⟩
  · refine Nat.le_zero.mp (hsleeps.trans (h.idle (hflag.symm.trans hf) fun p' hp' => ?_).le)
    by_contra hsignal
    rw [Bool.not_eq_false] at hsignal
    exact absurd hsignal
      (by simp [hno p' (List.mem_append_right _ (hnosignal p' hp' hsignal))])
  · rcases List.mem_append.mp hp' with hmine | hother
    · exact absurd (SimPoint.isSet_of_willStart hstart) (by simp [(hown p' hmine).1])
    · exact Nat.le_zero.mp (hsleeps.trans (h.starts p' (hmem p' hother) hstart).le)
  · rcases List.mem_append.mp hp' with hmine | hother
    · exact absurd (SimPoint.isSet_of_willSignal hsignal) (by simp [(hown p' hmine).1])
    · exact hflag.trans (h.signals p' (hmem p' hother) hsignal)

theorem SimsOrdered.enter (h : SimsOrdered c) (call : LinkDownCall)
    (hc : SimsInTurn c (.enter call)) : SimsOrdered (linkDownStep c (.enter call)).1 := by
  have ho : outcome linkDownProgram c (.enter call) = some (linkDownEnter c.shared call) := rfl
  rw [linkDownStep,step_some ho]
  cases call with
  | setLinkDown bValue =>
    by_cases hv : c.shared.eWanLinkDown = bValue
    · rw [linkDownEnter,if_pos hv]
      exact h
    · have hsets := hc hv
      have hidle := fun hflag => h.idle hflag fun p hp => SimPoint.not_willSignal (hsets p hp)
      have hkept : (.setStore bValue :: c.threads).countP SimPoint.maySleep =
          c.threads.countP SimPoint.maySleep := List.countP_cons_of_neg (by
            simp [SimPoint.maySleep,SimPoint.onTheWay,CondVar.asleep,SimPoint.wakes,
              SimPoint.isStranded])
      rw [linkDownEnter,if_neg hv]
      refine SimsOrdered.ofSet hsets (List.forall_mem_cons.mpr ⟨rfl,h.reachable⟩) ?_
        (fun hflag _ => hkept.trans (hidle hflag)) (fun hstart => ?_)
        (fun hsignal => absurd hsignal (by simp [SimPoint.willSignal]))
      · exact hkept.le.trans h.oneSleep
      · have hset : bValue = true := hstart
        rw [hset,Bool.not_eq_true] at hv
        exact hkept.trans (hidle hv)
  | setLinkDownTimeout uValue =>
    by_cases hv : c.shared.eWanLinkDownTimeout = uValue
    · rw [linkDownEnter,if_pos hv]
      exact h
    · rw [linkDownEnter,if_neg hv]
      exact ⟨h.oneSet,h.oneSleep,h.reachable,h.idle,h.starts,h.signals⟩

theorem linkDownStep_resume {k : Nat} (a : SimAnswers) (hk : c.threads[k]? = some p) :
    (linkDownStep c (.resume k a)).1 = ⟨(linkDownResume c.shared p a).shared,
      condEffect c.shared a p ((linkDownResume c.shared p a).threads ++
        rest c (.resume k a : SimStep))⟩ := by
  have ho : outcome linkDownProgram c (.resume k a) = some (linkDownResume c.shared p a) :=
    outcome_resume hk
  rw [linkDownStep,step_some ho]
  simp only [hk]

theorem SimsOrdered.others_notSet (h : SimsOrdered c) (hperm : c.threads.Perm (p :: others))
    (hp : p.isSet) : ∀ p' ∈ others, p'.isSet = false := by
  have hone := h.oneSet
  rw [hperm.countP_eq,List.countP_cons,if_pos hp] at hone
  have hnone : others.countP SimPoint.isSet = 0 := by omega
  exact fun p' hp' => by simpa using List.countP_eq_zero.mp hnone p' hp'

theorem SimsOrdered.others_sleep (h : SimsOrdered c) (hperm : c.threads.Perm (p :: others)) :
    others.countP SimPoint.maySleep + (if p.maySleep then 1 else 0) ≤ 1 := by
  have hone := h.oneSleep
  rwa [hperm.countP_eq,List.countP_cons] at hone

theorem SimsOrdered.others_reachable (h : SimsOrdered c)
    (hperm : c.threads.Perm (p :: others)) : ∀ p' ∈ others, p'.isStranded = false :=
  fun p' hp' => h.reachable p' (hperm.mem_iff.mpr (List.mem_cons_of_mem p hp'))

theorem SimsOrdered.setStore (h : SimsOrdered c) {bValue : Bool}
    (hperm : c.threads.Perm (.setStore bValue :: others)) :
    SimsOrdered ⟨{ c.shared with eWanLinkDown := bValue },.setSignal bValue :: others⟩ := by
  have hsleep := h.others_sleep hperm
  have hcount : (SimPoint.setSignal bValue :: others).countP SimPoint.maySleep =
      others.countP SimPoint.maySleep := List.countP_cons_of_neg (by
        simp [SimPoint.maySleep,SimPoint.onTheWay,CondVar.asleep,SimPoint.wakes,
          SimPoint.isStranded])
  refine SimsOrdered.ofSet (h.others_notSet hperm rfl)
    (List.forall_mem_cons.mpr ⟨rfl,h.others_reachable hperm⟩) ?_ ?_ (fun hstart => ?_) ?_
  · rw [hcount]
    omega
  · intro hflag hsignal
    simp only [SimPoint.willSignal,Bool.not_eq_false'] at hsignal
    exact absurd (hflag.symm.trans hsignal) Bool.false_ne_true
  · have hold := h.starts _ (hperm.mem_iff.mpr List.mem_cons_self) hstart
    rw [hperm.countP_eq,List.countP_cons] at hold
    rw [hcount]
    omega
  · intro hsignal
    simpa [SimPoint.willSignal] using hsignal

theorem SimsOrdered.setSignal (h : SimsOrdered c) {bValue : Bool}
    (hperm : c.threads.Perm (.setSignal bValue :: others)) :
    SimsOrdered ⟨c.shared,(if c.shared.eWanLinkDown then .setCreate else .setWake) :: others⟩ := by
  have hself := hperm.mem_iff.mpr List.mem_cons_self
  have hsleep := h.others_sleep hperm
  have hsets := h.others_notSet hperm rfl
  have hreach := h.others_reachable hperm
  cases hflag : c.shared.eWanLinkDown with
  | true =>
    -- The Set is one of `true`, or it would find the value that it has stored.
    have hset : bValue = true := by
      cases bValue with
      | true => rfl
      | false => exact absurd (hflag.symm.trans (h.signals _ hself rfl)) (by decide)
    have hold := h.starts _ hself hset
    rw [hperm.countP_eq,List.countP_cons] at hold
    refine SimsOrdered.ofSet hsets (List.forall_mem_cons.mpr ⟨rfl,hreach⟩) ?_
      (fun hno => absurd (hflag.symm.trans hno) (by decide))
      (fun hstart => absurd hstart (by decide)) (fun hsignal => absurd hsignal (by decide))
    rw [if_pos rfl,List.countP_cons]
    split <;> omega
  | false =>
    have hcount : (SimPoint.setWake :: others).countP SimPoint.maySleep =
        others.countP SimPoint.maySleep := List.countP_cons_of_neg (by decide)
    refine SimsOrdered.ofSet hsets (List.forall_mem_cons.mpr ⟨rfl,hreach⟩) ?_
      (fun _ hno => absurd hno (by decide)) (fun hstart => absurd hstart (by decide))
      (fun _ => hflag)
    rw [if_neg Bool.false_ne_true,hcount]
    omega

theorem SimsOrdered.setCreate (h : SimsOrdered c) (created : Bool)
    (hperm : c.threads.Perm (.setCreate :: others)) :
    SimsOrdered ⟨c.shared,(if created then [.simCreated] else []) ++ others⟩ := by
  have hsets := h.others_notSet hperm rfl
  have hreach := h.others_reachable hperm
  have hnone : others.countP SimPoint.maySleep = 0 := by
    have hsleep := h.others_sleep hperm
    rw [if_pos (by decide)] at hsleep
    omega
  cases created with
  | false => exact SimsOrdered.ofNoSet hsets hreach (hnone.trans_le (Nat.zero_le 1)) fun _ => hnone
  | true =>
    have hcount : (SimPoint.simCreated :: others).countP SimPoint.maySleep = 1 := by
      rw [List.countP_cons,hnone,if_pos (by decide)]
    refine SimsOrdered.ofNoSet (List.forall_mem_cons.mpr ⟨rfl,hsets⟩)
      (List.forall_mem_cons.mpr ⟨rfl,hreach⟩) hcount.le fun hflag => ?_
    · have hidle := h.idle hflag fun p hp => by
        rcases List.mem_cons.mp (hperm.mem_iff.mp hp) with rfl | hother
        · rfl
        · exact SimPoint.not_willSignal (hsets p hother)
      rw [hperm.countP_eq,List.countP_cons,if_pos (by decide)] at hidle
      omega

theorem wakes_awake (q p : SimPoint) (h : q.wakes = some p) : p.wakes = none := by
  cases q <;> simp only [SimPoint.wakes,Option.some.injEq,reduceCtorEq] at h
  subst h
  rfl

/-- The signal finds the simulation asleep, and there is no other that it could wake. -/
theorem SimsOrdered.setWake (h : SimsOrdered c) (n : Nat)
    (hperm : c.threads.Perm (.setWake :: others)) (hway : ∀ p ∈ others, p.onTheWay = false) :
    SimsOrdered ⟨c.shared,CondVar.signal SimPoint.wakes n others⟩ := by
  have hfrom : ∀ p ∈ CondVar.signal SimPoint.wakes n others,
      p ∈ others ∨ ∃ limited, p = .simWoken limited := by
    intro p hp
    rcases CondVar.mem_signal hp with hold | ⟨q,-,hwoken⟩
    · exact .inl hold
    · cases q <;> simp only [SimPoint.wakes,Option.some.injEq,reduceCtorEq] at hwoken
      exact .inr ⟨_,hwoken.symm⟩
  have hsets : ∀ p ∈ CondVar.signal SimPoint.wakes n others, p.isSet = false := by
    intro p hp
    rcases hfrom p hp with hold | ⟨limited,rfl⟩
    · exact h.others_notSet hperm rfl p hold
    · rfl
  have hreach : ∀ p ∈ CondVar.signal SimPoint.wakes n others, p.isStranded = false := by
    intro p hp
    rcases hfrom p hp with hold | ⟨limited,rfl⟩
    · exact h.others_reachable hperm p hold
    · rfl
  have hawake : (CondVar.signal SimPoint.wakes n others).countP
      (CondVar.asleep SimPoint.wakes) = 0 := by
    have hle : others.countP (CondVar.asleep SimPoint.wakes) ≤ others.countP SimPoint.maySleep :=
      List.countP_mono_left fun p _ hp => by simp [SimPoint.maySleep,hp]
    have hsleep := h.others_sleep hperm
    rw [CondVar.countP_signal wakes_awake]
    omega
  have hnone : (CondVar.signal SimPoint.wakes n others).countP SimPoint.maySleep = 0 := by
    refine List.countP_eq_zero.mpr fun p hp => ?_
    have hsleeps := List.countP_eq_zero.mp hawake p hp
    have hnotset : p ≠ .setCreate := by
      rintro rfl
      exact absurd (hsets _ hp) (by decide)
    have hnotway : p.onTheWay = false := by
      rcases hfrom p hp with hold | ⟨limited,rfl⟩
      · exact hway p hold
      · rfl
    simp [SimPoint.maySleep,hsleeps,hnotset,hnotway,hreach p hp]
  exact SimsOrdered.ofNoSet hsets hreach (by omega) fun _ => hnone

theorem strand_awake (h : CondVar.asleep SimPoint.wakes p = false) : p.strand = p := by
  cases p with
  | simAsleep limited => exact absurd h (by simp [CondVar.asleep,SimPoint.wakes])
  | _ => rfl

theorem SimsOrdered.simCreated (h : SimsOrdered c)
    (hperm : c.threads.Perm (.simCreated :: others)) :
    SimsOrdered ⟨c.shared,(SimPoint.simLock :: others).map SimPoint.strand⟩ := by
  have hsleep := h.others_sleep hperm
  rw [if_pos (by decide)] at hsleep
  have hnone : others.countP SimPoint.maySleep = 0 := by omega
  have hsame : (SimPoint.simLock :: others).map SimPoint.strand = SimPoint.simLock :: others := by
    refine (List.map_congr_left fun p hp => ?_).trans (List.map_id _)
    rcases List.mem_cons.mp hp with rfl | hother
    · rfl
    · have hawake := List.countP_eq_zero.mp hnone p hother
      exact strand_awake (by simp [SimPoint.maySleep] at hawake; simp [hawake])
  rw [hsame]
  exact h.simulate (l := [.simLock]) hperm rfl rfl (by decide) (by decide)

theorem SimsOrdered.simReset (h : SimsOrdered c) (hperm : c.threads.Perm (.simReset :: others))
    (halone : ∀ p ∈ others, p.maySleep = false) :
    SimsOrdered ⟨{ c.shared with eWanLinkDown := false },.simUp :: others⟩ := by
  have hnone : (SimPoint.simUp :: others).countP SimPoint.maySleep = 0 :=
    List.countP_eq_zero.mpr (List.forall_mem_cons.mpr ⟨by decide,fun p hp => by simp [halone p hp]⟩)
  have hsets : (SimPoint.simUp :: others).countP SimPoint.isSet ≤ 1 := by
    have hold := h.oneSet
    rwa [hperm.countP_eq,List.countP_cons_of_neg (by decide)] at hold
  exact ⟨hsets,hnone.trans_le (Nat.zero_le 1),
    List.forall_mem_cons.mpr ⟨rfl,h.others_reachable hperm⟩,
    fun _ _ => hnone,fun _ _ _ => hnone,fun _ _ _ => rfl⟩

theorem SimsOrdered.resume (h : SimsOrdered c) {k : Nat} {a : SimAnswers}
    (hk : c.threads[k]? = some p) (hc : SimsInTurn c (.resume k a)) :
    SimsOrdered (linkDownStep c (.resume k a)).1 := by
  have hperm := threads_perm (κ := LinkDownCall) a hk
  have hin := hc p hk
  rw [linkDownStep_resume a hk]
  cases p with
  | setStore bValue => exact h.setStore hperm
  | setSignal bValue => exact h.setSignal hperm
  | setCreate => exact h.setCreate a.created hperm
  | setWake =>
    have hflag := h.signals _ (hperm.mem_iff.mpr List.mem_cons_self) rfl
    simp only [condEffect,hflag,Bool.false_eq_true,if_false]
    exact h.setWake a.woken hperm (hin hflag)
  | simCreated => exact h.simCreated hperm
  | simLock =>
    cases hlock : c.shared.linkdownlock <;> simp only [linkDownResume,hlock,if_true,if_false,
      Bool.false_eq_true]
    · exact h.simulate (l := [.simLocked]) hperm rfl rfl (by decide) (by decide)
    · exact h.simulate (l := [.simLock]) hperm rfl rfl (by decide) (by decide)
  | simLocked => exact h.simulate (l := [.simTest]) hperm rfl rfl (by decide) (by decide)
  | simTest =>
    exact h.simulate (l := [.simWait _]) hperm rfl rfl
      (List.forall_mem_singleton.mpr ⟨rfl,rfl⟩) (List.countP_le_length.trans_eq rfl)
  | simWait limited =>
    exact h.simulate (l := [.simAsleep limited]) hperm rfl rfl
      (List.forall_mem_singleton.mpr ⟨rfl,rfl⟩) (List.countP_le_length.trans_eq rfl)
  | simAsleep limited =>
    cases hw : a.wakes <;> simp only [linkDownResume,hw,if_true,if_false,Bool.false_eq_true]
    · exact h.simulate (l := [.simAsleep limited]) hperm rfl rfl
        (List.forall_mem_singleton.mpr ⟨rfl,rfl⟩) (List.countP_le_length.trans_eq rfl)
    · exact h.simulate (l := [.simWoken limited]) hperm rfl rfl
        (List.forall_mem_singleton.mpr ⟨rfl,rfl⟩) (List.countP_le_length.trans_eq rfl)
  | simStranded limited =>
    exact absurd (h.reachable _ (hperm.mem_iff.mpr List.mem_cons_self))
      (by simp [SimPoint.isStranded])
  | simWoken limited =>
    cases hlock : c.shared.linkdownlock <;> simp only [linkDownResume,hlock,if_true,if_false,
      Bool.false_eq_true]
    · cases limited
      · exact h.simulate (l := [.simUp]) hperm rfl rfl (by decide) (by decide)
      · exact h.simulate (l := [.simReset]) hperm rfl rfl (by decide) (by decide)
    · exact h.simulate (l := [.simWoken limited]) hperm rfl rfl
        (List.forall_mem_singleton.mpr ⟨rfl,rfl⟩) (Nat.le_of_eq rfl)
  | simReset => exact h.simReset hperm hin
  | simUp => exact h.simulate (l := []) hperm rfl rfl (by decide) (by decide)

theorem SimsOrdered.step (h : SimsOrdered c) {ev : SimStep} (hc : SimsInTurn c ev) :
    SimsOrdered (silent linkDownStep c ev) := by
  cases ev with
  | enter call => exact h.enter call hc
  | resume k a =>
    cases hk : c.threads[k]? with
    | none =>
      rw [silent,linkDownStep,step_none (by simp [outcome,hk])]
      simp only [hk]
      exact h
    | some p => exact h.resume hk hc

theorem SimsOrdered.noneForgotten (h : SimsOrdered c) : NoneForgotten c := by
  intro hflag hsets p hp
  have hnone := h.idle hflag fun q hq => SimPoint.not_willSignal (hsets q hq)
  by_contra hblocked
  rw [Bool.not_eq_false] at hblocked
  exact List.countP_eq_zero.mp hnone p hp (SimPoint.maySleep_of_isBlocked hblocked)

/-- In every run in which Sets and simulations come in turn, no thread stays blocked
when `EWanLinkDown` is false and every Set has returned. -/
theorem wake_up_not_lost {s : LinkDownStatus} {steps : List SimStep}
    (h : Meets (silent linkDownStep) SimsInTurn ⟨s,[]⟩ steps) :
    Always (silent linkDownStep) NoneForgotten ⟨s,[]⟩ steps := by
  have h0 : SimsOrdered ⟨s,[]⟩ :=
    ⟨Nat.zero_le 1,Nat.zero_le 1,fun _ hp => absurd hp List.not_mem_nil,fun _ _ => rfl,
      fun _ hp => absurd hp List.not_mem_nil,fun _ hp => absurd hp List.not_mem_nil⟩
  exact always_of_meets (J := SimsOrdered) h0 (fun _ _ h hc => h.step hc)
    (fun _ h => h.noneForgotten) h

def linkUpStatus : LinkDownStatus where
  eWanLinkDown := false
  eWanLinkDownTimeout := 0
  linkdownlock := false

/-- The thread is created, and nothing wakes it by itself. -/
def simSleeps : SimAnswers where
  created := true
  wakes := false
  woken := 0

/-- `LinkDown` is set to true, and to false when the thread has made so many steps. -/
def linkDownSteps (n : Nat) : List SimStep :=
  let set : Bool → List SimStep :=
    fun b => .enter (.setLinkDown b) :: List.replicate 3 (.resume 0 simSleeps)
  set true ++ List.replicate n (.resume 0 simSleeps) ++ set false ++
    List.replicate 6 (.resume 0 simSleeps)

theorem wake_up_not_lost_asleep :
    Meets (silent linkDownStep) SimsInTurn ⟨linkUpStatus,[]⟩ (linkDownSteps 5) ∧
      Always (silent linkDownStep) NoneForgotten ⟨linkUpStatus,[]⟩ (linkDownSteps 5) :=
  ⟨by decide +kernel,wake_up_not_lost (by decide +kernel)⟩

/-- The signal comes before the thread sleeps, and finds nobody. -/
theorem early_signal_is_lost :
    ¬ Always (silent linkDownStep) NoneForgotten ⟨linkUpStatus,[]⟩ (linkDownSteps 0) := by
  intro h
  have hnone := h.last (by decide +kernel) (by decide +kernel) (.simAsleep false)
    (by decide +kernel)
  exact absurd hnone (by decide)

end EthAgent
