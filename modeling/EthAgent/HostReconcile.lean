import EthAgent.HostMonitor
import EthAgent.Lib.Sweeping

/-!
What one iteration of the host monitor makes of the main table: the report fills
the second table while new devices go into the first, then the first is swept of
what the second does not know.
-/

set_option autoImplicit false

namespace EthAgent
open CString Probing Runs Sweeping

abbrev StoresMac (list : HostTable) (m : Mac) : Prop :=
  Stored EthDevice.ethDevMacAddress list m

def validMacs (report : List ReportEntry) : Set Mac :=
  {m | ∃ e ∈ report, ¬ e.rejected ∧ e.device.ethDevMacAddress = m}

def Reconciled (s : Monitor) (report : List ReportEntry) : Prop :=
  storedMacs s.hashArrayList = validMacs report ∧ s.hashArrayTempList = emptyHosts

def handled (report : List ReportEntry) : List ReportEntry :=
  report.take (loopBound report.length)

def ReportEntry.listed (e : ReportEntry) : Bool := ¬ e.rejected ∧ e.tempCopied

/-- The MAC is in the second table after the first loop: one of its entries is
among the 256 that this table holds. -/
def Known (report : List ReportEntry) (m : Mac) : Prop :=
  m ∈ (((handled report).filter ReportEntry.listed).take ethNodeHashSize).map
    fun e => e.device.ethDevMacAddress

/-- An entry of the MAC can be stored in the main table. -/
def Admits (m : Mac) (s : Monitor) (e : ReportEntry) : Prop :=
  e.device.ethDevMacAddress = m ∧ ¬ e.rejected ∧ e.mainCopied = true ∧
    ∃ i, s.hashArrayList i = none

/-- The MAC is stored before the iteration, or one of its entries can be stored
when its turn comes. -/
def Admitted (registered : Bool) (s : Monitor) (report : List ReportEntry) (m : Mac) : Prop :=
  StoresMac s.hashArrayList m ∨
    Sometime (silent (hostPlusBody registered)) (Admits m) { s with isDeleteAllDone := false }
      (handled report)

/-- A device with the MAC is to be deleted from slot `i`, and the lookup does not
end there: a slot before it is empty, or holds the MAC too. -/
def Misses (m : Mac) (s : Monitor) (i : Slot) : Prop :=
  ∃ host ∈ s.stale i, host.ethDevMacAddress = m ∧ findHost (some host) s.hashArrayList ≠ some i

/-- Some deletion of the second loop misses the MAC. -/
def Overlooked (registered : Bool) (s : Monitor) (report : List ReportEntry) (m : Mac) : Prop :=
  Sometime (silent (hostMinusBody registered)) (Misses m) (hostPlusLoop registered s report).1
    (List.finRange ethNodeHashSize)

/-- Each valid MAC gets into both tables (or is overlooked), and no other stored
MAC is overlooked. -/
def CanReconcile (registered : Bool) (s : Monitor) (report : List ReportEntry) : Prop :=
  (∀ m ∈ validMacs report, (Known report m ∧ Admitted registered s report m) ∨
    Overlooked registered s report m) ∧
  ∀ m ∉ validMacs report, ¬ Overlooked registered s report m

section FirstLoop

/-- With the copy made, `CcspHalExtSw_AddHost` fails on a full table only. -/
theorem addHost_of_copied (registered : Bool) (host : EthDevice) (list : HostTable)
    (notify : Bool) :
    (∃ i, list i = none ∧ (addHost registered true (some host) list notify).list =
        Function.update list i (some { host with ethActive := true })) ∨
      ((∀ i, list i ≠ none) ∧ (addHost registered true (some host) list notify).list = list) := by
  have hscan := addHostLoop_eq_scan list (homeSlot host.ethDevMacAddress) ethNodeHashSize
    (homeSlot host.ethDevMacAddress)
  rcases scan_spec (fun j => (list j).isNone) (homeSlot host.ethDevMacAddress) ethNodeHashSize
    (homeSlot host.ethDevMacAddress) (by simp) (by simp) with ⟨i,hi,hfirst⟩ | ⟨hnone,hall⟩
  · rw [hi,homeSlot] at hscan
    exact .inl ⟨i,by simpa using hfirst.1,by simp [addHost,hscan]⟩
  · rw [hnone,homeSlot] at hscan
    refine .inr ⟨fun i hi => ?_,by simp [addHost,hscan]⟩
    have hfull := hall i
    simp [hi] at hfull

theorem storesMac_addHost (registered copied : Bool) (host : EthDevice) (list : HostTable)
    (notify : Bool) (m : Mac) :
    StoresMac (addHost registered copied (some host) list notify).list m ↔
      StoresMac list m ∨
        (host.ethDevMacAddress = m ∧ copied = true ∧ ∃ i, list i = none) := by
  cases copied with
  | false => simp [addHost]
  | true =>
    rcases addHost_of_copied registered host list notify with ⟨i,hfree,heq⟩ | ⟨hfull,heq⟩
    · rw [heq,StoresMac,stored_insert hfree]
      have hex : ∃ i, list i = none := ⟨i,hfree⟩
      simp only [hex,and_true]
      exact or_comm.trans (or_congr_right eq_comm)
    · rw [heq]
      exact (or_iff_left fun h => h.2.2.elim hfull).symm

theorem storesMac_deleteHost_of_ne (registered : Bool) {host : EthDevice} (list : HostTable)
    (notify : Bool) {m : Mac} (hne : host.ethDevMacAddress ≠ m) :
    StoresMac (deleteHost registered (some host) list notify).list m ↔ StoresMac list m := by
  rcases deleteHost_cases registered host list notify with ⟨-,heq⟩ | ⟨i,d,hd,-,hdm,heq⟩
  · rw [heq]
  · rw [heq]
    constructor
    · rintro ⟨j,e,he,hm⟩
      exact ⟨j,e,(mem_erase he).2,hm⟩
    · rintro ⟨j,e,he,hm⟩
      have hji : j ≠ i := by
        rintro rfl
        rw [Option.mem_unique he hd,hdm] at hm
        exact hne hm
      exact ⟨j,e,by simpa only [Function.update_of_ne hji] using he,hm⟩

theorem storesMac_of_findHost {host : EthDevice} {list : HostTable} {i : Slot}
    (h : findHost (some host) list = some i) : StoresMac list host.ethDevMacAddress :=
  ((findHost_eq_some_iff host list i).mp h).stored

theorem storesMac_plusBody (registered : Bool) (s : Monitor) {e : ReportEntry} {m : Mac}
    (hvalid : e.rejected → e.device.ethDevMacAddress ≠ m) :
    StoresMac (hostPlusBody registered s e).1.hashArrayList m ↔
      StoresMac s.hashArrayList m ∨ Admits m s e := by
  unfold hostPlusBody Admits
  by_cases hrej : e.rejected
  · simp only [hrej,if_true,not_true,false_and,and_false,or_false]
    exact storesMac_deleteHost_of_ne registered s.hashArrayList true (hvalid hrej)
  · simp only [hrej,if_false,not_false_eq_true,true_and]
    cases hf : findHost (some e.device) s.hashArrayList with
    | none => exact storesMac_addHost registered e.mainCopied e.device s.hashArrayList true m
    | some i =>
      have hstored := storesMac_of_findHost hf
      exact (or_iff_left_of_imp fun h => h.1 ▸ hstored).symm

theorem plusBody_temp (registered : Bool) (s : Monitor) (e : ReportEntry) :
    (hostPlusBody registered s e).1.hashArrayTempList =
      if e.rejected then s.hashArrayTempList
      else (addHost registered e.tempCopied (some e.device) s.hashArrayTempList false).list := by
  unfold hostPlusBody
  split <;> rfl

/-- After the first loop: the main table stores the MAC if it did, or an entry
could be stored. -/
theorem storesMac_plusLoop (registered : Bool) (s : Monitor) {report : List ReportEntry}
    {m : Mac} (hvalid : ∀ e ∈ report, e.rejected → e.device.ethDevMacAddress ≠ m) :
    StoresMac (hostPlusLoop registered s report).1.hashArrayList m ↔
      Admitted registered s report m := by
  rw [hostPlusLoop,exec_logged_fst]
  exact exec_iff_or_sometime (P := fun s : Monitor => StoresMac s.hashArrayList m)
    fun s e he => storesMac_plusBody registered s (hvalid e (List.mem_of_mem_take he))

/-- The second table after the entries `es`: what it stores are the MACs of the
first 256 that were listed, and lookups find all of them. -/
structure Lists (t : HostTable) (es : List ReportEntry) : Prop where
  complete : LookupComplete t
  count : taken t = min (es.filter ReportEntry.listed).length ethNodeHashSize
  stores : ∀ m, StoresMac t m ↔
    m ∈ ((es.filter ReportEntry.listed).take ethNodeHashSize).map
      fun e => e.device.ethDevMacAddress

theorem lists_nil : Lists emptyHosts [] where
  complete := complete_emptyHosts
  count := taken_empty
  stores := by simp [Stored,emptyHosts]

theorem Lists.listed {registered : Bool} {t : HostTable} {es : List ReportEntry}
    (h : Lists t es) {e : ReportEntry} (he : e.listed = true) :
    Lists (addHost registered true (some e.device) t false).list (es ++ [e]) := by
  have hfilter : (es ++ [e]).filter ReportEntry.listed = es.filter ReportEntry.listed ++ [e] := by
    simp [he]
  have hcomplete := complete_addHost registered true (some e.device) t false h.complete
  have htaken := h.count
  have hfreeIff := exists_free_iff t
  rcases addHost_of_copied registered e.device t false with ⟨i,hfree,heq⟩ | ⟨hfull,heq⟩
  · have hlt := hfreeIff.mp ⟨i,hfree⟩
    refine ⟨hcomplete,?_,fun m => ?_⟩
    · rw [heq,taken_insert hfree,hfilter,List.length_append,List.length_singleton]
      omega
    · have hold := h.stores m
      rw [List.take_of_length_le (by omega)] at hold
      rw [heq,hfilter,List.take_of_length_le (by simp; omega)]
      refine (stored_insert hfree m).trans ?_
      simp only [List.map_append,List.mem_append,List.map_cons,List.map_nil,List.mem_singleton]
      exact or_comm.trans (or_congr_left hold)
  · have hge : ¬ taken t < ethNodeHashSize := fun hlt =>
      (hfreeIff.mpr hlt).elim fun i hi => hfull i hi
    refine ⟨hcomplete,?_,fun m => ?_⟩
    · rw [heq,hfilter,List.length_append,List.length_singleton]
      omega
    · rw [heq,h.stores m,hfilter,List.take_append_of_le_length (by omega)]

theorem Lists.unlisted {t : HostTable} {es : List ReportEntry} (h : Lists t es)
    {e : ReportEntry} (he : e.listed = false) : Lists t (es ++ [e]) := by
  have hfilter : (es ++ [e]).filter ReportEntry.listed = es.filter ReportEntry.listed := by
    simp [he]
  exact ⟨h.complete,by rw [hfilter]; exact h.count,by rw [hfilter]; exact h.stores⟩

theorem lists_plusBodies (registered : Bool) {s : Monitor}
    (hs : s.hashArrayTempList = emptyHosts) (es : List ReportEntry) :
    Lists (exec (silent (hostPlusBody registered)) s es).hashArrayTempList es := by
  induction es using List.reverseRecOn with
  | nil => exact hs ▸ lists_nil
  | append_singleton es e ih =>
    rw [exec,List.foldl_append,← exec]
    change Lists (hostPlusBody registered _ e).1.hashArrayTempList _
    rw [plusBody_temp]
    by_cases hrej : e.rejected
    · rw [if_pos hrej]
      exact ih.unlisted (by simp [ReportEntry.listed,hrej])
    · rw [if_neg hrej]
      cases hcopied : e.tempCopied with
      | true => exact ih.listed (by simp [ReportEntry.listed,hrej,hcopied])
      | false => exact ih.unlisted (by simp [ReportEntry.listed,hcopied])

end FirstLoop

section SecondLoop

def findMac (list : HostTable) (m : Mac) : Option Slot := findHost (some ⟨m,0,false⟩) list

theorem findMac_eq (list : HostTable) (host : EthDevice) :
    findMac list host.ethDevMacAddress = findHost (some host) list := rfl

theorem findMac_stored (list : HostTable) (m : Mac) (j : Slot) (h : findMac list m = some j) :
    ∃ d ∈ list j, d.ethDevMacAddress = m :=
  ((findHost_eq_some_iff ⟨m,0,false⟩ list j).mp h).1

/-- What the second loop deletes: all that the second table does not find. -/
def notListed (temp : HostTable) (m : Mac) : Bool := (findMac temp m).isNone

abbrev sweepHosts (temp : HostTable) : HostTable → Slot → HostTable :=
  sweepStep EthDevice.ethDevMacAddress findMac (notListed temp)

theorem minusBody_eq_sweepStep (registered : Bool) (s : Monitor) (i : Slot) :
    (silent (hostMinusBody registered) s i).hashArrayList =
        sweepHosts s.hashArrayTempList s.hashArrayList i ∧
      (silent (hostMinusBody registered) s i).hashArrayTempList = s.hashArrayTempList := by
  unfold silent hostMinusBody Monitor.stale sweepHosts sweepStep notListed
  cases hi : s.hashArrayList i with
  | none => simp
  | some d =>
    cases hstale : (findHost (some d) s.hashArrayTempList).isNone with
    | false => simp [hstale,findMac_eq,Option.filter]
    | true =>
      rcases deleteHost_cases registered d s.hashArrayList true with
        ⟨hf,heq⟩ | ⟨j,e,he,hf,-,heq⟩
      · simp [hstale,findMac_eq,Option.filter,heq,hf]
      · simp [hstale,findMac_eq,Option.filter,heq,hf]

theorem misses_iff (m : Mac) (s : Monitor) (i : Slot) :
    Misses m s i ↔ notListed s.hashArrayTempList m = true ∧
      Missed EthDevice.ethDevMacAddress findMac m s.hashArrayList i := by
  unfold Misses Missed Monitor.stale notListed
  constructor
  · rintro ⟨host,hhost,rfl,hne⟩
    obtain ⟨hmem,hstale⟩ := Option.mem_filter_iff.mp hhost
    exact ⟨hstale,⟨host,hmem,rfl⟩,hne⟩
  · rintro ⟨hstale,⟨host,hmem,rfl⟩,hne⟩
    exact ⟨host,Option.mem_filter_iff.mpr ⟨hmem,hstale⟩,rfl,hne⟩

theorem exec_minusBody (registered : Bool) (s : Monitor) (is : List Slot) :
    (exec (silent (hostMinusBody registered)) s is).hashArrayList =
        exec (sweepHosts s.hashArrayTempList) s.hashArrayList is ∧
      (exec (silent (hostMinusBody registered)) s is).hashArrayTempList =
        s.hashArrayTempList := by
  induction is generalizing s with
  | nil => exact ⟨rfl,rfl⟩
  | cons i is ih =>
    obtain ⟨hmain,htemp⟩ := minusBody_eq_sweepStep registered s i
    obtain ⟨hmain',htemp'⟩ := ih (silent (hostMinusBody registered) s i)
    rw [exec_cons,exec_cons,hmain',htemp',hmain,htemp]
    exact ⟨rfl,rfl⟩

theorem sometime_misses_iff (registered : Bool) (m : Mac) (s : Monitor) (is : List Slot) :
    Sometime (silent (hostMinusBody registered)) (Misses m) s is ↔
      notListed s.hashArrayTempList m = true ∧
        Sometime (sweepHosts s.hashArrayTempList)
          (Missed EthDevice.ethDevMacAddress findMac m) s.hashArrayList is := by
  induction is generalizing s with
  | nil => simp [Sometime]
  | cons i is ih =>
    obtain ⟨hmain,htemp⟩ := minusBody_eq_sweepStep registered s i
    rw [Sometime,Sometime,misses_iff,ih,hmain,htemp,and_or_left]

/-- After the second loop: what the second table knows stays, and what it does not
know stays if a deletion misses it. -/
theorem storesMac_minusLoop (registered : Bool) (s : Monitor) (m : Mac) :
    StoresMac (hostMinusLoop registered s).1.hashArrayList m ↔
      (notListed s.hashArrayTempList m = false ∧ StoresMac s.hashArrayList m) ∨
        Sometime (silent (hostMinusBody registered)) (Misses m) s
          (List.finRange ethNodeHashSize) := by
  rw [hostMinusLoop,exec_logged_fst,(exec_minusBody registered s _).1,sometime_misses_iff]
  cases hstale : notListed s.hashArrayTempList m with
  | false =>
    rw [StoresMac,stored_sweep_of_fresh findMac_stored hstale]
    simp
  | true =>
    rw [StoresMac,stored_sweep_iff findMac_stored hstale]
    simp

end SecondLoop

theorem notListed_iff {t : HostTable} {report : List ReportEntry} (h : Lists t (handled report))
    (m : Mac) : notListed t m = false ↔ Known report m := by
  have hfound := h.complete ⟨m,0,false⟩
  rw [notListed,findMac,Option.isNone_eq_false_iff]
  exact hfound.trans (h.stores m)

theorem storesMac_iteration (registered : Bool) {s : Monitor} {report : List ReportEntry}
    (hs : s.hashArrayTempList = emptyHosts) (hne : report.length ≠ 0) (m : Mac) :
    StoresMac (monitorIteration registered s (.devices report)).1.hashArrayList m ↔
      (Known report m ∧ StoresMac (hostPlusLoop registered s report).1.hashArrayList m) ∨
        Overlooked registered s report m := by
  have hlists : Lists (hostPlusLoop registered s report).1.hashArrayTempList (handled report) := by
    rw [hostPlusLoop,exec_logged_fst]
    exact lists_plusBodies registered (s := { s with isDeleteAllDone := false }) hs
      (handled report)
  simp only [monitorIteration,hne,if_false]
  rw [storesMac_minusLoop,notListed_iff hlists]
  rfl

theorem Known.valid {report : List ReportEntry} {m : Mac} (h : Known report m) :
    m ∈ validMacs report := by
  obtain ⟨e,he,hm⟩ := List.mem_map.mp h
  obtain ⟨hmem,hlisted⟩ := List.mem_filter.mp (List.mem_of_mem_take he)
  have hvalid : ¬ e.rejected := (of_decide_eq_true hlisted).1
  exact ⟨e,List.mem_of_mem_take hmem,hvalid,hm⟩

theorem temp_empty (registered : Bool) (reports : List HalReport) :
    (exec (silent (monitorIteration registered)) monitorInit reports).hashArrayTempList =
      emptyHosts := by
  refine exec_inv_all (J := fun s : Monitor => s.hashArrayTempList = emptyHosts) rfl
    (fun s r h => ?_) reports
  cases r with
  | failure => exact h
  | devices report =>
    by_cases hn : report.length = 0
    · cases hdone : s.isDeleteAllDone with
      | true => simpa only [silent,monitorIteration,hn,hdone,if_true] using h
      | false =>
        simpa only [silent,monitorIteration,hn,hdone,if_true,Bool.false_eq_true,if_false] using h
    · simp only [silent,monitorIteration,hn,if_false]
      exact deleteAllHosts_fst registered _ false

/-- In every reachable state, and for every report in which the MAC decides the
validity, the iteration reconciles the table exactly if each valid device gets
into it and no other one is overlooked. -/
theorem monitor_reconciles_iff (registered : Bool) (reports : List HalReport)
    (report : List ReportEntry) (valid : Mac → Bool)
    (hvalid : ∀ e ∈ report, e.rejected ↔ valid e.device.ethDevMacAddress = false)
    (hne : report.length ≠ 0) :
    Reconciled (monitorIteration registered
        (exec (silent (monitorIteration registered)) monitorInit reports) (.devices report)).1
        report ↔
      CanReconcile registered (exec (silent (monitorIteration registered)) monitorInit reports)
        report := by
  have hs := temp_empty registered reports
  generalize exec (silent (monitorIteration registered)) monitorInit reports = s at hs
  have htemp : (monitorIteration registered s (.devices report)).1.hashArrayTempList =
      emptyHosts := by
    simp only [monitorIteration,hne,if_false]
    exact deleteAllHosts_fst registered _ false
  rw [Reconciled,and_iff_left htemp,Set.ext_iff]
  have hstores := storesMac_iteration registered hs hne
  constructor
  · intro h
    refine ⟨fun m hm => ?_,fun m hm hover => hm ((h m).mp ((hstores m).mpr (.inr hover)))⟩
    refine ((hstores m).mp ((h m).mpr hm)).imp_left fun hknown => ⟨hknown.1,?_⟩
    obtain ⟨e,he,hacc,rfl⟩ := hm
    refine (storesMac_plusLoop registered s fun e' he' hrej hmac => hacc ?_).mp hknown.2
    rw [hvalid e he,← hmac,← hvalid e' he']
    exact hrej
  · rintro ⟨hin,hout⟩ m
    refine (hstores m).trans ⟨?_,fun hm => ?_⟩
    · rintro (⟨hknown,-⟩ | hover)
      · exact hknown.valid
      · by_contra hm
        exact hout m hm hover
    · refine (hin m hm).imp_left fun hknown => ⟨hknown.1,?_⟩
      obtain ⟨e,he,hacc,rfl⟩ := hm
      refine (storesMac_plusLoop registered s fun e' he' hrej hmac => hacc ?_).mpr hknown.2
      rw [hvalid e he,← hmac,← hvalid e' he']
      exact hrej

theorem monitor_reconciles_two_hosts :
    Reconciled (monitorIteration true
        (exec (silent (monitorIteration true)) monitorInit [.devices [accepted hostA]])
        (.devices [accepted hostB])).1 [accepted hostB] ↔
      CanReconcile true
        (exec (silent (monitorIteration true)) monitorInit [.devices [accepted hostA]])
        [accepted hostB] :=
  monitor_reconciles_iff true [.devices [accepted hostA]] [accepted hostB] (fun _ => true)
    (by decide) (by decide)

def hostC : EthDevice := ⟨⟨0x00,0x11,0x22,0x33,0x44,0x56⟩,3,true⟩

/-- Two colliding devices leave at once, and a third comes: the deletion of the
first empties the slot before that of the second, which is then not found. -/
theorem departed_host_stays :
    ¬ Reconciled (monitorIteration true
        (exec (silent (monitorIteration true)) monitorInit
          [.devices [accepted hostA,accepted hostB]])
        (.devices [accepted hostC])).1 [accepted hostC] := by
  intro h
  have hstays : hostB.ethDevMacAddress ∈ storedMacs (monitorIteration true
      (exec (silent (monitorIteration true)) monitorInit
        [.devices [accepted hostA,accepted hostB]])
      (.devices [accepted hostC])).1.hashArrayList :=
    ⟨⟨6,by decide⟩,hostB,by decide +kernel,rfl⟩
  rw [h.1] at hstays
  obtain ⟨e,he,-,hm⟩ := hstays
  rw [List.mem_singleton.mp he] at hm
  exact absurd hm (by decide)

end EthAgent
