import EthAgent.HostMonitor
import EthAgent.Lib.Mirror

/-!
What LMLite learns of the hosts. Each callback of the host monitor becomes a message to
LMLite, but only outside bridge mode; `Ethernet_Hosts_Sync` repeats the hosts of the main
table on request. What LMLite holds of a host is right exactly if it has missed an even
number of callbacks since the last message about that host.
-/

set_option autoImplicit false

namespace EthAgent
open CString Probing Runs Presence Mirror

/-- What one callback meets: the answer of `is_usg_in_bridge_mode`, if it succeeds, and
whether LMLite accepts the parameter. -/
structure CallbackAnswers where
  bridgeMode : Option Bool
  accepted : Bool

def CallbackAnswers.delivered (a : CallbackAnswers) : Bool :=
  a.bridgeMode = some false && a.accepted

/-- `param_value` in `Notify_To_LMLite`: `%02X:…` fills its first 17 bytes, and the
`snprintf` behind them has the other 8. -/
def paramValue (mac : Mac) (active : Bool) : Text :=
  macText mac ++
    (Buf.store (',' :: (if active then "true".toList else "false".toList)) : Buf 8).text

/-- The messages that LMLite gets from `CosaDmlEth_AssociatedDevice_callback`. -/
def associatedDeviceCallback (a : CallbackAnswers) (ethDev : EthDevice) : List Text :=
  if a.bridgeMode = some false then
    if a.accepted then [paramValue ethDev.ethDevMacAddress ethDev.ethActive] else []
  else []

def messages (answers : Nat → CallbackAnswers) (calls : List EthDevice) : List Text :=
  calls.zipIdx.flatMap fun p => associatedDeviceCallback (answers p.2) p.1

def notices (refresh : Bool) (answers : Nat → CallbackAnswers) (calls : List EthDevice) :
    List (Notice Mac) :=
  calls.zipIdx.map fun p =>
    ⟨p.1.ethDevMacAddress,p.1.ethActive,refresh,(answers p.2).delivered⟩

structure HostSync where
  monitor : Monitor
  texts : List Text
  log : List (Notice Mac)

def hostSyncInit : HostSync := ⟨monitorInit,[],[]⟩

inductive HostEvent where
  | iteration (r : HalReport) (answers : Nat → CallbackAnswers)
  | hostsSync (answers : Nat → CallbackAnswers)

def hostSyncStep (s : HostSync) : HostEvent → HostSync
  | .iteration r answers =>
    let next := monitorIteration true s.monitor r
    ⟨next.1,s.texts ++ messages answers next.2,s.log ++ notices false answers next.2⟩
  | .hostsSync answers =>
    let calls := ethernetHostsSync s.monitor
    ⟨s.monitor,s.texts ++ messages answers calls,s.log ++ notices true answers calls⟩

def textSays (m : Mac) (text : Text) : Option Bool :=
  if text = paramValue m true then some true
  else if text = paramValue m false then some false
  else none

def lmliteHolds (s : HostSync) (m : Mac) : Option Bool := lastOf (textSays m) s.texts

theorem paramValue_eq (mac : Mac) (active : Bool) :
    paramValue mac active = macText mac ++ ',' :: (if active then "true".toList
      else "false".toList) := by
  cases active <;> rfl

theorem length_macText (m : Mac) : (macText m).length = 17 := rfl

/-- A message says of exactly one MAC that it is there, or that it is not. -/
theorem paramValue_injective {m m' : Mac} {b b' : Bool} (h : paramValue m b = paramValue m' b') :
    m = m' ∧ b = b' := by
  rw [paramValue_eq,paramValue_eq] at h
  obtain ⟨hmac,hword⟩ := List.append_inj h ((length_macText m).trans (length_macText m').symm)
  refine ⟨macText_injective hmac,?_⟩
  cases b <;> cases b' <;> first | rfl | exact absurd hword (by decide)

theorem textSays_paramValue (m mac : Mac) (active : Bool) :
    textSays m (paramValue mac active) = if mac = m then some active else none := by
  by_cases hm : mac = m
  · subst hm
    cases active with
    | true => simp [textSays]
    | false =>
      have hne : paramValue mac false ≠ paramValue mac true :=
        fun h => absurd (paramValue_injective h).2 (by decide)
      simp [textSays,hne]
  · have hne : ∀ b, paramValue mac active ≠ paramValue m b :=
      fun b h => hm (paramValue_injective h).1
    simp [textSays,hne,hm]

theorem messages_eq (refresh : Bool) (answers : Nat → CallbackAnswers) (calls : List EthDevice) :
    messages answers calls =
      ((notices refresh answers calls).filter Notice.received).map fun e =>
        paramValue e.key e.present := by
  unfold messages notices
  induction calls.zipIdx with
  | nil => rfl
  | cons p calls ih =>
    rw [List.flatMap_cons,ih,List.map_cons]
    by_cases hmode : (answers p.2).bridgeMode = some false <;>
      cases ha : (answers p.2).accepted <;>
        simp [associatedDeviceCallback,CallbackAnswers.delivered,hmode,ha]

theorem changes_notices (answers : Nat → CallbackAnswers) (calls : List EthDevice) :
    changes (notices false answers calls) = presence calls := by
  have hall : (notices false answers calls).filter (fun e => !e.refresh) =
      notices false answers calls := by
    refine List.filter_eq_self.mpr fun e he => ?_
    obtain ⟨p,-,rfl⟩ := List.mem_map.mp he
    rfl
  rw [changes,hall,notices,List.map_map,presence]
  conv_rhs => rw [← List.zipIdx_map_fst 0 calls,List.map_map]
  rfl

theorem refresh_of_mem_notices {refresh : Bool} {answers : Nat → CallbackAnswers}
    {calls : List EthDevice} {e : Notice Mac} (h : e ∈ notices refresh answers calls) :
    e.refresh = refresh ∧ ∃ d ∈ calls, e.key = d.ethDevMacAddress ∧ e.present = d.ethActive := by
  obtain ⟨p,hp,rfl⟩ := List.mem_map.mp h
  exact ⟨rfl,p.1,List.fst_mem_of_mem_zipIdx hp,rfl,rfl⟩

theorem lastOf_textSays (m : Mac) (log : List (Notice Mac)) :
    lastOf (textSays m) ((log.filter Notice.received).map fun e =>
      paramValue e.key e.present) = heard m log := by
  rw [lastOf,heard,latest,stream]
  congr 1
  induction log.filter Notice.received with
  | nil => rfl
  | cons e log ih =>
    have hsays := textSays_paramValue m e.key e.present
    rw [List.map_cons,List.map_cons]
    by_cases hk : e.key = m
    · rw [if_pos hk] at hsays
      rw [List.filterMap_cons_some hsays,List.filter_cons_of_pos (by simpa using hk),
        List.map_cons,ih]
    · rw [if_neg hk] at hsays
      rw [List.filterMap_cons_none hsays,List.filter_cons_of_neg (by simpa using hk),ih]

structure SyncInv (s : HostSync) : Prop where
  monitor : ∃ calls, MonitorInv s.monitor calls ∧ changes s.log = presence calls
  truthful : Truthful s.log
  texts : s.texts = (s.log.filter Notice.received).map fun e => paramValue e.key e.present

/-- Every deletion of an iteration empties a slot on no other device's way. -/
def EventDeletesUnused (s : HostSync) : HostEvent → Prop
  | .iteration r _ => IterationDeletesUnused s.monitor r
  | .hostsSync _ => True

instance (s : HostSync) : DecidablePred (EventDeletesUnused s)
  | .iteration r _ => inferInstanceAs (Decidable (IterationDeletesUnused s.monitor r))
  | .hostsSync _ => .isTrue trivial

theorem texts_append {s : HostSync} (h : SyncInv s) (refresh : Bool)
    (answers : Nat → CallbackAnswers) (calls : List EthDevice) :
    s.texts ++ messages answers calls =
      ((s.log ++ notices refresh answers calls).filter Notice.received).map fun e =>
        paramValue e.key e.present := by
  rw [h.texts,messages_eq refresh,List.filter_append,List.map_append]

theorem SyncInv.step {s : HostSync} (h : SyncInv s) {ev : HostEvent}
    (hsafe : EventDeletesUnused s ev) : SyncInv (hostSyncStep s ev) := by
  obtain ⟨calls,hmonitor,hchanges⟩ := h.monitor
  cases ev with
  | iteration r answers =>
    refine ⟨⟨_,hmonitor.iteration hsafe,?_⟩,?_,texts_append h false answers _⟩
    · simp only [hostSyncStep]
      rw [changes_append,hchanges,changes_notices,presence,presence,presence,List.map_append]
    · exact h.truthful.append_changes fun e he => (refresh_of_mem_notices he).1
  | hostsSync answers =>
    obtain ⟨-,hagree,hactive⟩ := hmonitor.syncAgrees
    have hbatch : ∀ e ∈ notices true answers (ethernetHostsSync s.monitor), e.refresh = true ∧
        e.present = true ∧ latest e.key (changes s.log) = some true := by
      intro e he
      obtain ⟨hrefresh,d,hd,hkey,hpresent⟩ := refresh_of_mem_notices he
      refine ⟨hrefresh,hpresent.trans (hactive d hd),?_⟩
      rw [hchanges,hkey]
      exact (hagree _).mp (List.mem_map_of_mem hd)
    have hsame : changes (notices true answers (ethernetHostsSync s.monitor)) = [] := by
      rw [changes,List.filter_eq_nil_iff.mpr,List.map_nil]
      intro e he
      simp [(refresh_of_mem_notices he).1]
    refine ⟨⟨calls,hmonitor,?_⟩,h.truthful.append_refreshes hbatch,texts_append h true answers _⟩
    simp only [hostSyncStep]
    rw [changes_append,hsame,List.append_nil,hchanges]

theorem syncInv_init : SyncInv hostSyncInit where
  monitor := ⟨[],monitorInv_init,rfl⟩
  truthful := fun before e after h => absurd h (by simp [hostSyncInit])
  texts := rfl

theorem SyncInv.lmliteHolds_iff {s : HostSync} (h : SyncInv s) (m : Mac) :
    lmliteHolds s m = some true ↔
      (m ∈ storedMacs s.monitor.hashArrayList ↔ Even (missed m s.log)) := by
  obtain ⟨calls,hmonitor,hchanges⟩ := h.monitor
  have htracks := hmonitor.announced.tracks
  have halternates : ∀ k, Alternates true (stream k (changes s.log)) := by
    rw [hchanges]
    exact htracks.alternates
  rw [lmliteHolds,h.texts,lastOf_textSays,heard_iff halternates h.truthful m,hchanges,
    htracks.present m]

def routed : CallbackAnswers := ⟨some false,true⟩
def bridged : CallbackAnswers := ⟨some true,true⟩

theorem mem_notices_keys {refresh : Bool} {answers : Nat → CallbackAnswers}
    {calls : List EthDevice} {m : Mac} :
    (∃ e ∈ notices refresh answers calls, e.key = m) ↔
      m ∈ calls.map EthDevice.ethDevMacAddress := by
  have hkeys : (notices refresh answers calls).map Notice.key =
      calls.map EthDevice.ethDevMacAddress := by
    rw [notices,List.map_map]
    conv_rhs => rw [← List.zipIdx_map_fst 0 calls,List.map_map]
    rfl
  rw [← hkeys,List.mem_map]

theorem SyncInv.hostsSync {s : HostSync} (h : SyncInv s) {answers : Nat → CallbackAnswers}
    (hall : ∀ k, (answers k).delivered = true) (m : Mac) :
    lmliteHolds (hostSyncStep s (.hostsSync answers)) m = some true ↔
      m ∈ storedMacs s.monitor.hashArrayList ∨ lmliteHolds s m = some true := by
  obtain ⟨calls,hmonitor,-⟩ := h.monitor
  obtain ⟨-,hagree,hactive⟩ := hmonitor.syncAgrees
  have hbatch : ∀ e ∈ notices true answers (ethernetHostsSync s.monitor),
      e.received = true ∧ e.present = true := by
    intro e he
    obtain ⟨p,hp,rfl⟩ := List.mem_map.mp he
    exact ⟨hall p.2,hactive p.1 (List.fst_mem_of_mem_zipIdx hp)⟩
  have hnext : SyncInv (hostSyncStep s (.hostsSync answers)) := h.step trivial
  have htexts := hnext.texts
  rw [lmliteHolds,htexts,lastOf_textSays,lmliteHolds,h.texts,lastOf_textSays]
  rw [show (hostSyncStep s (.hostsSync answers)).log = s.log ++
      notices true answers (ethernetHostsSync s.monitor) from rfl,
    heard_append_present hbatch,mem_notices_keys,hagree m,hmonitor.announced.tracks.present m]

/-- A synchronisation that reaches LMLite makes it hold the hosts of the main table, and
leaves in it the hosts whose departure it has missed. -/
theorem hosts_sync_adds_missing (events : List HostEvent)
    (hsafe : Meets hostSyncStep EventDeletesUnused hostSyncInit events)
    (answers : Nat → CallbackAnswers) (hall : ∀ k, (answers k).delivered = true) :
    Always hostSyncStep (fun s => ∀ m,
      lmliteHolds (hostSyncStep s (.hostsSync answers)) m = some true ↔
        m ∈ storedMacs s.monitor.hashArrayList ∨ lmliteHolds s m = some true)
      hostSyncInit events :=
  always_of_meets (J := SyncInv) syncInv_init (fun _ _ h hc => h.step hc)
    (fun _ h => h.hostsSync hall) hsafe

/-- A host that came in bridge mode is added. -/
theorem hosts_sync_adds_arrival :
    lmliteHolds (exec hostSyncStep hostSyncInit
        [.iteration (.devices [accepted hostA]) fun _ => bridged]) hostA.ethDevMacAddress = none ∧
      Always hostSyncStep (fun s => ∀ m,
        lmliteHolds (hostSyncStep s (.hostsSync fun _ => routed)) m = some true ↔
          m ∈ storedMacs s.monitor.hashArrayList ∨ lmliteHolds s m = some true)
        hostSyncInit [.iteration (.devices [accepted hostA]) fun _ => bridged] :=
  ⟨by decide +kernel,hosts_sync_adds_missing _ (by decide +kernel) _ fun _ => rfl⟩

end EthAgent
