import EthAgent.HostTable
import EthAgent.Lib.Presence

/-!
The polling loop `CcspHalExtSw_AssociatedDeviceMonitorThread`. Each iteration
compares a report of the HAL with the main table and calls the registered
callback for every device that appeared or went away; a second table collects
the devices of the report.
-/

set_option autoImplicit false

namespace EthAgent
open CString Probing Runs Presence

/-- One device of a report, with what the loop learns and meets while it handles
it: `Device_Mode` as `atoi` reads it from syscfg, the answer of `ValidateClient`,
and whether the copies for the two tables can be made. -/
structure ReportEntry where
  device : EthDevice
  deviceMode : Option Int
  validateClient : Int
  mainCopied : Bool
  tempCopied : Bool

inductive HalReport where
  | failure
  | devices (pstRecvEthDevice : List ReportEntry)

structure Monitor where
  hashArrayList : HostTable
  hashArrayTempList : HostTable
  isDeleteAllDone : Bool

def monitorInit : Monitor := ⟨emptyHosts,emptyHosts,false⟩

def ReportEntry.rejected (e : ReportEntry) : Prop :=
  e.deviceMode.getD 0 ≠ 1 ∧ e.validateClient = 0

instance (e : ReportEntry) : Decidable e.rejected := inferInstanceAs (Decidable (_ ∧ _))

def hostPlusBody (registered : Bool) (s : Monitor) (e : ReportEntry) :
    Monitor × List EthDevice :=
  if e.rejected then
    let call := deleteHost registered (some e.device) s.hashArrayList true
    ({ s with hashArrayList := call.list },call.notified)
  else
    let main := match findHost (some e.device) s.hashArrayList with
      | none => addHost registered e.mainCopied (some e.device) s.hashArrayList true
      | some _ => ⟨0,s.hashArrayList,[]⟩
    let temp := addHost registered e.tempCopied (some e.device) s.hashArrayTempList false
    ({ s with hashArrayList := main.list, hashArrayTempList := temp.list },
      main.notified ++ temp.notified)

/-- A device of slot `i` that the second table does not know. -/
def Monitor.stale (s : Monitor) (i : Slot) : Option EthDevice :=
  (s.hashArrayList i).filter fun host => (findHost (some host) s.hashArrayTempList).isNone

/-- The body of the second loop, over the slots of the main table. -/
def hostMinusBody (registered : Bool) (s : Monitor) (i : Slot) : Monitor × List EthDevice :=
  match s.stale i with
  | none => (s,[])
  | some host =>
    let call := deleteHost registered (some host) s.hashArrayList true
    ({ s with hashArrayList := call.list },call.notified)

def loopBound (ulTotalEthDeviceCount : Nat) : Nat :=
  (BitVec.ofNat 32 ulTotalEthDeviceCount).toInt.toNat

def hostPlusLoop (registered : Bool) (s : Monitor) (report : List ReportEntry) :
    Monitor × List EthDevice :=
  exec (logged (hostPlusBody registered)) ({ s with isDeleteAllDone := false },[])
    (report.take (loopBound report.length))

def hostMinusLoop (registered : Bool) (s : Monitor) : Monitor × List EthDevice :=
  exec (logged (hostMinusBody registered)) (s,[]) (List.finRange ethNodeHashSize)

def monitorIteration (registered : Bool) (s : Monitor) :
    HalReport → Monitor × List EthDevice
  | .failure => (s,[])
  | .devices report =>
    if report.length = 0 then
      if s.isDeleteAllDone then (s,[])
      else
        let all := deleteAllHosts registered s.hashArrayList true
        ({ s with hashArrayList := all.1, isDeleteAllDone := true },all.2)
    else
      let plus := hostPlusLoop registered s report
      let minus := hostMinusLoop registered plus.1
      let temp := deleteAllHosts registered minus.1.hashArrayTempList false
      ({ minus.1 with hashArrayTempList := temp.1 },plus.2 ++ minus.2 ++ temp.2)

def presence (calls : List EthDevice) : List (Mac × Bool) :=
  calls.map fun d => (d.ethDevMacAddress,d.ethActive)

abbrev NoDuplicateHosts (list : HostTable) : Prop :=
  UniqueKeys EthDevice.ethDevMacAddress list

def storedMacs (list : HostTable) : Set Mac :=
  {m | Stored EthDevice.ethDevMacAddress list m}

/-- The callbacks so far say of each MAC whether the table stores it, and every
stored device is marked active. -/
structure Announced (list : HostTable) (calls : List EthDevice) : Prop where
  unique : NoDuplicateHosts list
  active : ∀ i, ∀ d ∈ list i, d.ethActive = true
  tracks : Tracks (presence calls) (storedMacs list)

theorem announced_init : Announced emptyHosts [] where
  unique := uniqueKeys_empty
  active := fun i d hd => absurd hd (by simp [emptyHosts])
  tracks := by
    have hempty : storedMacs emptyHosts = ∅ := by
      ext m
      simp [storedMacs,Stored,emptyHosts]
    rw [hempty]
    exact Tracks.nil

theorem presence_snoc (calls : List EthDevice) (d : EthDevice) :
    presence (calls ++ [d]) = presence calls ++ [(d.ethDevMacAddress,d.ethActive)] := by
  simp [presence]

theorem Announced.erase {list : HostTable} {calls : List EthDevice}
    (h : Announced list calls) {i : Slot} {d : EthDevice} (hd : d ∈ list i) :
    Announced (Function.update list i none)
      (calls ++ [{ d with ethActive := false }]) where
  unique := uniqueKeys_erase h.unique
  active := fun j e he => h.active j e (mem_erase he).2
  tracks := by
    have hleave := h.tracks.leave (k := d.ethDevMacAddress) ⟨i,d,hd,rfl⟩
    have hset : storedMacs (Function.update list i none) =
        storedMacs list \ {d.ethDevMacAddress} := by
      ext m
      exact stored_erase h.unique hd m
    rw [presence_snoc,hset]
    exact hleave

theorem Announced.insert {list : HostTable} {calls : List EthDevice}
    (h : Announced list calls) {i : Slot} (hfree : list i = none) {d : EthDevice}
    (hactive : d.ethActive = true)
    (hnew : ¬ Stored EthDevice.ethDevMacAddress list d.ethDevMacAddress) :
    Announced (Function.update list i (some d)) (calls ++ [d]) where
  unique := uniqueKeys_insert h.unique hnew
  active := by
    intro j e he
    by_cases hj : j = i
    · subst j
      rw [Function.update_self,Option.mem_some_iff] at he
      rw [← he]; exact hactive
    · rw [Function.update_of_ne hj] at he
      exact h.active j e he
  tracks := by
    have harrive := h.tracks.arrive (k := d.ethDevMacAddress) hnew
    have hset : storedMacs (Function.update list i (some d)) =
        Insert.insert d.ethDevMacAddress (storedMacs list) := by
      ext m
      exact stored_insert hfree m
    rw [presence_snoc,hset,hactive]
    exact harrive

theorem Announced.deleteSlot {list : HostTable} {calls : List EthDevice}
    (h : Announced list calls) (i : Slot) :
    Announced (deleteSlot true true list i).1 (calls ++ (deleteSlot true true list i).2) := by
  unfold EthAgent.deleteSlot
  cases hl : list i with
  | none => simpa [hl] using h
  | some d => simpa [hl] using h.erase (Option.mem_def.mpr hl)

theorem Announced.deleteAllHosts {list : HostTable} {calls : List EthDevice}
    (h : Announced list calls) :
    Announced (deleteAllHosts true list true).1
      (calls ++ (deleteAllHosts true list true).2) :=
  exec_logged_inv (J := Announced) (C := fun _ _ => True) h
    (fun _ _ i hi _ => hi.deleteSlot i) (meets_of_forall fun _ _ => trivial)

theorem Announced.addHost {list : HostTable} {calls : List EthDevice}
    (h : Announced list calls) (hc : LookupComplete list) (copied : Bool)
    {host : EthDevice} (hf : findHost (some host) list = none) :
    Announced (addHost true copied (some host) list true).list
      (calls ++ (addHost true copied (some host) list true).notified) := by
  rcases addHost_cases true copied host list true with heq | ⟨i,hfree,-,heq⟩
  · rw [heq]; simpa using h
  · have hnew : ¬ Stored EthDevice.ethDevMacAddress list host.ethDevMacAddress := by
      intro hs
      have hsome := (hc host).mpr hs
      simp [hf] at hsome
    rw [heq]
    exact h.insert hfree rfl hnew

theorem Announced.deleteHost {list : HostTable} {calls : List EthDevice}
    (h : Announced list calls) (host : EthDevice) :
    Announced (deleteHost true (some host) list true).list
      (calls ++ (deleteHost true (some host) list true).notified) := by
  rcases deleteHost_cases true host list true with ⟨-,heq⟩ | ⟨i,d,hd,-,-,heq⟩
  · rw [heq]; simpa using h
  · rw [heq]; exact h.erase hd

/-- The deletion of a rejected device empties a slot on no other device's way. -/
def PlusDeletesUnused (s : Monitor) (e : ReportEntry) : Prop :=
  e.rejected → EmptiesUnused (some e.device) s.hashArrayList

def MinusDeletesUnused (s : Monitor) (i : Slot) : Prop :=
  ∀ host ∈ s.stale i, EmptiesUnused (some host) s.hashArrayList

instance (s : Monitor) (e : ReportEntry) : Decidable (PlusDeletesUnused s e) :=
  inferInstanceAs (Decidable (_ → _))

instance (s : Monitor) (i : Slot) : Decidable (MinusDeletesUnused s i) :=
  inferInstanceAs (Decidable (∀ _ ∈ _, _))

/-- Every deletion of an iteration, each in the table it meets, empties a slot
on no other device's way. -/
def IterationDeletesUnused (s : Monitor) : HalReport → Prop
  | .failure => True
  | .devices report =>
    report.length ≠ 0 →
      Meets (silent (hostPlusBody true)) PlusDeletesUnused { s with isDeleteAllDone := false }
          (report.take (loopBound report.length)) ∧
        Meets (silent (hostMinusBody true)) MinusDeletesUnused (hostPlusLoop true s report).1
          (List.finRange ethNodeHashSize)

instance : (s : Monitor) → (r : HalReport) → Decidable (IterationDeletesUnused s r)
  | _, .failure => .isTrue trivial
  | _, .devices _ => inferInstanceAs (Decidable (_ ≠ 0 → _))

/-- What the loop keeps from its start on: complete lookups in the main table,
and callbacks that agree with it. -/
structure MonitorInv (s : Monitor) (calls : List EthDevice) : Prop where
  complete : LookupComplete s.hashArrayList
  announced : Announced s.hashArrayList calls

theorem monitorInv_init : MonitorInv monitorInit [] :=
  ⟨complete_emptyHosts,announced_init⟩

theorem MonitorInv.plusBody {s : Monitor} {calls : List EthDevice} (h : MonitorInv s calls)
    {e : ReportEntry} (hsafe : PlusDeletesUnused s e) :
    MonitorInv (hostPlusBody true s e).1 (calls ++ (hostPlusBody true s e).2) := by
  unfold hostPlusBody
  by_cases hr : e.rejected
  · simp only [hr,if_true]
    exact ⟨(complete_deleteHost_iff true _ _ true h.complete).mpr (hsafe hr),
      h.announced.deleteHost e.device⟩
  · have htemp : (addHost true e.tempCopied (some e.device) s.hashArrayTempList
        false).notified = [] := by
      rcases addHost_cases true e.tempCopied e.device s.hashArrayTempList false with
        heq | ⟨i,-,-,heq⟩ <;> simp [heq]
    simp only [hr,if_false,htemp,List.append_nil]
    cases hf : findHost (some e.device) s.hashArrayList with
    | none =>
      exact ⟨complete_addHost true _ _ _ true h.complete,
        h.announced.addHost h.complete e.mainCopied hf⟩
    | some i => exact ⟨h.complete,by simpa using h.announced⟩

theorem MonitorInv.minusBody {s : Monitor} {calls : List EthDevice} (h : MonitorInv s calls)
    {i : Slot} (hsafe : MinusDeletesUnused s i) :
    MonitorInv (hostMinusBody true s i).1 (calls ++ (hostMinusBody true s i).2) := by
  unfold hostMinusBody
  cases hst : s.stale i with
  | none => simpa [hst] using h
  | some host =>
    simp only
    exact ⟨(complete_deleteHost_iff true _ _ true h.complete).mpr
        (hsafe host (Option.mem_def.mpr hst)),
      h.announced.deleteHost host⟩

theorem deleteAllHosts_silent (registered : Bool) (list : HostTable) :
    (deleteAllHosts registered list false).2 = [] := by
  have hinv := exec_inv_all (f := logged (deleteSlot registered false))
    (J := fun p => p.2 = []) (s := (list,[])) rfl (fun p i hp => ?_)
    (List.finRange ethNodeHashSize)
  · exact hinv
  · simp only [logged,hp,List.nil_append,deleteSlot]
    split <;> simp

theorem MonitorInv.setTemp {s : Monitor} {calls : List EthDevice} (h : MonitorInv s calls)
    (temp : HostTable) : MonitorInv { s with hashArrayTempList := temp } calls :=
  ⟨h.complete,h.announced⟩

theorem MonitorInv.plusLoop {s : Monitor} {calls : List EthDevice} (h : MonitorInv s calls)
    {report : List ReportEntry}
    (hsafe : Meets (silent (hostPlusBody true)) PlusDeletesUnused
      { s with isDeleteAllDone := false } (report.take (loopBound report.length))) :
    MonitorInv (hostPlusLoop true s report).1 (calls ++ (hostPlusLoop true s report).2) :=
  exec_logged_inv (J := MonitorInv) (s := { s with isDeleteAllDone := false })
    ⟨h.complete,h.announced⟩ (fun _ _ _ hi hc => hi.plusBody hc) hsafe

theorem MonitorInv.minusLoop {s : Monitor} {calls : List EthDevice} (h : MonitorInv s calls)
    (hsafe : Meets (silent (hostMinusBody true)) MinusDeletesUnused s
      (List.finRange ethNodeHashSize)) :
    MonitorInv (hostMinusLoop true s).1 (calls ++ (hostMinusLoop true s).2) :=
  exec_logged_inv (J := MonitorInv) h (fun _ _ _ hi hc => hi.minusBody hc) hsafe

theorem MonitorInv.iteration {s : Monitor} {calls : List EthDevice} (h : MonitorInv s calls)
    {r : HalReport} (hsafe : IterationDeletesUnused s r) :
    MonitorInv (monitorIteration true s r).1 (calls ++ (monitorIteration true s r).2) := by
  cases r with
  | failure => simpa [monitorIteration] using h
  | devices report =>
    by_cases hn : report.length = 0
    · cases hdone : s.isDeleteAllDone with
      | true => simpa [monitorIteration,hn,hdone] using h
      | false =>
        simp only [monitorIteration,hn,hdone,if_true,Bool.false_eq_true,if_false]
        have hall := h.announced.deleteAllHosts
        rw [deleteAllHosts_fst] at hall ⊢
        exact ⟨complete_emptyHosts,hall⟩
    · obtain ⟨hplus,hminus⟩ := hsafe hn
      have hinv := (h.plusLoop hplus).minusLoop hminus
      simp only [monitorIteration,hn,if_false,deleteAllHosts_silent,List.append_nil]
      rw [← List.append_assoc]
      exact hinv.setTemp _

def monitorStep : Monitor × List EthDevice → HalReport → Monitor × List EthDevice :=
  logged (monitorIteration true)

structure Alternating (p : Monitor × List EthDevice) : Prop where
  callbacks : ∀ m, Alternates true (stream m (presence p.2))
  noDuplicates : NoDuplicateHosts p.1.hashArrayList

theorem MonitorInv.alternating {s : Monitor} {calls : List EthDevice}
    (h : MonitorInv s calls) : Alternating (s,calls) :=
  ⟨h.announced.tracks.alternates,h.announced.unique⟩

theorem not_alternating {p : Monitor × List EthDevice} {m : Mac}
    (h : ¬ Alternates true (stream m (presence p.2))) : ¬ Alternating p :=
  fun ha => h (ha.callbacks m)

theorem callbacks_alternate (reports : List HalReport)
    (hsafe : Meets monitorStep (fun p r => IterationDeletesUnused p.1 r)
      (monitorInit,[]) reports) :
    Always monitorStep Alternating (monitorInit,[]) reports :=
  always_of_meets (J := fun p => MonitorInv p.1 p.2) monitorInv_init
    (fun _ _ hi hc => hi.iteration hc) (fun _ hi => hi.alternating) hsafe

/-- A device which the loop accepts on `ValidateClient`'s word, and one it rejects. -/
def accepted (d : EthDevice) : ReportEntry := ⟨d,none,1,true,true⟩
def refused (d : EthDevice) : ReportEntry := ⟨d,none,0,true,true⟩

theorem callbacks_alternate_connect_reject :
    Always monitorStep Alternating (monitorInit,[])
      [.devices [accepted hostA],.failure,.devices [refused hostA,accepted hostB],
        .devices []] :=
  callbacks_alternate _ (by decide +kernel)

/-- Two colliding devices, then only the second, twice: its slot is behind the
emptied one, so it is stored and announced again. -/
def collidingReports : List HalReport :=
  [.devices [accepted hostA,accepted hostB],.devices [accepted hostB],
    .devices [accepted hostB]]

theorem callbacks_repeat_connect :
    ¬ Alternating (exec monitorStep (monitorInit,[]) collidingReports) := by
  have hrepeat : ¬ Alternates true (stream hostB.ethDevMacAddress
      (presence (exec monitorStep (monitorInit,[]) collidingReports).2)) := by
    decide +kernel
  exact not_alternating hrepeat

def ethernetHostsSync (s : Monitor) : List EthDevice :=
  sendNotificationForAllHosts true s.hashArrayList

/-- The full synchronisation reports, once each and as active, the MACs whose
last callback was a connect. -/
def SyncAgrees (p : Monitor × List EthDevice) : Prop :=
  ((ethernetHostsSync p.1).map EthDevice.ethDevMacAddress).Nodup ∧
    (∀ m, m ∈ (ethernetHostsSync p.1).map EthDevice.ethDevMacAddress ↔
      latest m (presence p.2) = some true) ∧
    ∀ d ∈ ethernetHostsSync p.1, d.ethActive = true

theorem mem_ethernetHostsSync (s : Monitor) (d : EthDevice) :
    d ∈ ethernetHostsSync s ↔ ∃ i, d ∈ s.hashArrayList i := by
  simp [ethernetHostsSync,sendNotificationForAllHosts]

theorem MonitorInv.syncAgrees {s : Monitor} {calls : List EthDevice}
    (h : MonitorInv s calls) : SyncAgrees (s,calls) := by
  refine ⟨?_,fun m => ?_,fun d hd => ?_⟩
  · rw [ethernetHostsSync,sendNotificationForAllHosts,if_pos rfl,List.map_filterMap]
    refine (List.nodup_finRange _).filterMap fun i j m hi hj => ?_
    simp only [Option.mem_def,Option.map_eq_some_iff] at hi hj
    obtain ⟨d,hd,rfl⟩ := hi
    obtain ⟨e,he,hm⟩ := hj
    exact h.announced.unique i j d hd e he hm.symm
  · rw [← h.announced.tracks.present m,List.mem_map]
    constructor
    · rintro ⟨d,hd,rfl⟩
      obtain ⟨i,hi⟩ := (mem_ethernetHostsSync s d).mp hd
      exact ⟨i,d,hi,rfl⟩
    · rintro ⟨i,d,hi,rfl⟩
      exact ⟨d,(mem_ethernetHostsSync s d).mpr ⟨i,hi⟩,rfl⟩
  · obtain ⟨i,hi⟩ := (mem_ethernetHostsSync s d).mp hd
    exact h.announced.active i d hi

theorem sync_agrees_with_callbacks (reports : List HalReport)
    (hsafe : Meets monitorStep (fun p r => IterationDeletesUnused p.1 r)
      (monitorInit,[]) reports) :
    Always monitorStep SyncAgrees (monitorInit,[]) reports :=
  always_of_meets (J := fun p => MonitorInv p.1 p.2) monitorInv_init
    (fun _ _ hi hc => hi.iteration hc) (fun _ hi => hi.syncAgrees) hsafe

theorem sync_agrees_connect_reject :
    Always monitorStep SyncAgrees (monitorInit,[])
      [.devices [accepted hostA],.failure,.devices [refused hostA,accepted hostB]] :=
  sync_agrees_with_callbacks _ (by decide +kernel)

theorem sync_reports_host_twice :
    ¬ SyncAgrees (exec monitorStep (monitorInit,[]) collidingReports) := by
  intro h
  exact absurd h.1 (by decide +kernel)

/-- As long as the flag is set, there is nothing in the main table. -/
def FlagKept (s : Monitor) : Prop := s.isDeleteAllDone = true → s.hashArrayList = emptyHosts

theorem hostPlusBody_flag (registered : Bool) (s : Monitor) (e : ReportEntry) :
    (hostPlusBody registered s e).1.isDeleteAllDone = s.isDeleteAllDone := by
  unfold hostPlusBody
  by_cases hr : e.rejected
  · simp only [hr,if_true]
  · simp only [hr,if_false]

theorem hostMinusBody_flag (registered : Bool) (s : Monitor) (i : Slot) :
    (hostMinusBody registered s i).1.isDeleteAllDone = s.isDeleteAllDone := by
  unfold hostMinusBody
  cases s.stale i with
  | none => rfl
  | some host => rfl

theorem hostPlusLoop_flag (registered : Bool) (s : Monitor) (report : List ReportEntry) :
    (hostPlusLoop registered s report).1.isDeleteAllDone = false := by
  rw [hostPlusLoop,exec_logged_fst]
  exact exec_inv_all (J := fun t : Monitor => t.isDeleteAllDone = false) rfl
    (fun t e ht => (hostPlusBody_flag registered t e).trans ht) _

theorem hostMinusLoop_flag (registered : Bool) (s : Monitor) :
    (hostMinusLoop registered s).1.isDeleteAllDone = s.isDeleteAllDone := by
  rw [hostMinusLoop,exec_logged_fst]
  exact exec_inv_all (J := fun t : Monitor => t.isDeleteAllDone = s.isDeleteAllDone) rfl
    (fun t i ht => (hostMinusBody_flag registered t i).trans ht) _

theorem FlagKept.iteration {s : Monitor} (h : FlagKept s) (registered : Bool)
    (r : HalReport) : FlagKept (monitorIteration registered s r).1 := by
  cases r with
  | failure => exact h
  | devices report =>
    by_cases hn : report.length = 0
    · cases hdone : s.isDeleteAllDone with
      | true => simpa [monitorIteration,hn,hdone] using h
      | false =>
        intro _
        simp [monitorIteration,hn,hdone,deleteAllHosts_fst]
    · have hflag := (hostMinusLoop_flag registered (hostPlusLoop registered s report).1).trans
        (hostPlusLoop_flag registered s report)
      intro hset
      simp only [monitorIteration,hn,if_false] at hset
      exact absurd (hflag.symm.trans hset) (by decide)

theorem exec_deleteSlot_snd (list : HostTable) (calls : List EthDevice) {is : List Slot}
    (hnodup : is.Nodup) :
    (exec (logged (deleteSlot true true)) (list,calls) is).2 =
      calls ++ is.filterMap fun i => (list i).map fun d => { d with ethActive := false } := by
  induction is generalizing list calls with
  | nil => simp
  | cons i is ih =>
    obtain ⟨hi,hrest⟩ := List.nodup_cons.mp hnodup
    have hkept : is.filterMap (fun j => ((deleteSlot true true list i).1 j).map
          fun d => { d with ethActive := false }) =
        is.filterMap fun j => (list j).map fun d => { d with ethActive := false } := by
      refine List.filterMap_congr fun j hj => ?_
      have hne : j ≠ i := fun h => hi (h ▸ hj)
      rw [deleteSlot_apply,if_neg hne]
    rw [exec_cons,logged,ih _ _ hrest,hkept,List.append_assoc]
    unfold deleteSlot
    cases hl : list i with
    | none => simp [hl]
    | some d => simp [hl]

theorem deleteAllHosts_snd (list : HostTable) :
    (deleteAllHosts true list true).2 = (List.finRange ethNodeHashSize).filterMap fun i =>
      (list i).map fun d => { d with ethActive := false } := by
  rw [deleteAllHosts,exec_deleteSlot_snd list [] (List.nodup_finRange _),List.nil_append]

theorem mem_deleteAllHosts {list : HostTable} {i : Slot} {d : EthDevice} (hd : d ∈ list i) :
    { d with ethActive := false } ∈ (deleteAllHosts true list true).2 := by
  rw [deleteAllHosts_snd,List.mem_filterMap]
  exact ⟨i,List.mem_finRange i,Option.map_eq_some_iff.mpr ⟨d,hd,rfl⟩⟩

/-- A report without devices empties the main table, and each device stored there is
announced as gone. -/
def EmptyReportClears (s : Monitor) : Prop :=
  (monitorIteration true s (.devices [])).1.hashArrayList = emptyHosts ∧
    ∀ i, ∀ d ∈ s.hashArrayList i,
      { d with ethActive := false } ∈ (monitorIteration true s (.devices [])).2

theorem FlagKept.emptyReportClears {s : Monitor} (h : FlagKept s) : EmptyReportClears s := by
  unfold EmptyReportClears
  cases hdone : s.isDeleteAllDone with
  | true =>
    have hempty := h hdone
    simp only [monitorIteration,hdone,List.length_nil,if_true]
    refine ⟨hempty,fun i d hd => absurd hd ?_⟩
    simp [hempty,emptyHosts]
  | false =>
    simp only [monitorIteration,hdone,List.length_nil,if_true,Bool.false_eq_true,if_false]
    exact ⟨deleteAllHosts_fst true _ true,fun i d hd => mem_deleteAllHosts hd⟩

theorem empty_report_clears (reports : List HalReport) :
    Always monitorStep (fun p => FlagKept p.1 ∧ EmptyReportClears p.1) (monitorInit,[])
      reports :=
  always_of_meets (J := fun p => FlagKept p.1) (C := fun _ _ => True)
    (fun h => absurd h (by decide)) (fun _ r hi _ => hi.iteration true r)
    (fun _ hi => ⟨hi,hi.emptyReportClears⟩) (meets_of_forall fun _ _ => trivial)

end EthAgent
