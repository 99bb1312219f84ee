import EthAgent.HostMonitor
import EthAgent.HostProbes
import EthAgent.Lib.ProbingSet
import EthAgent.Lib.Simulation

/-!
The hash table of the hosts against what it is for: a set of at most 256 devices, one for
each MAC address. As long as no device is added whose MAC is stored and no deletion empties
a slot on another device's way, every call on the table answers and notifies as the same
call on the set does.
-/

set_option autoImplicit false

namespace EthAgent
open CString Probing Runs Simulation

inductive TableCall where
  | find (host : EthDevice)
  | add (copied : Bool) (host : Option EthDevice) (notify : Bool)
  | delete (host : Option EthDevice) (notify : Bool)
  | deleteAll (notify : Bool)
  | sendAll

/-- What a call returns, the device that a lookup finds, and the callbacks, which the two
functions over all slots make in the order of the slots. -/
structure Answer where
  ret : Int
  found : Option EthDevice
  notified : Multiset EthDevice

def tableCall (list : HostTable) : TableCall → HostTable × List Answer
  | .find host => (list,[⟨0,(findHost (some host) list).bind list,0⟩])
  | .add copied host notify =>
    let call := addHost true copied host list notify
    (call.list,[⟨call.ret,none,call.notified⟩])
  | .delete host notify =>
    let call := deleteHost true host list notify
    (call.list,[⟨call.ret,none,call.notified⟩])
  | .deleteAll notify =>
    let all := deleteAllHosts true list notify
    (all.1,[⟨0,none,all.2⟩])
  | .sendAll => (list,[⟨0,none,sendNotificationForAllHosts true list⟩])

def EthDevice.setActive (active : Bool) (d : EthDevice) : EthDevice :=
  { d with ethActive := active }

noncomputable def deviceOf (s : Finset EthDevice) (host : EthDevice) : Option EthDevice :=
  recordOf EthDevice.ethDevMacAddress s host.ethDevMacAddress

/-- The same calls on the set of the stored devices. -/
noncomputable def setCall (s : Finset EthDevice) : TableCall → Finset EthDevice × List Answer
  | .find host => (s,[⟨0,deviceOf s host,0⟩])
  | .add copied host notify =>
    match host with
    | none => (s,[⟨-1,none,0⟩])
    | some host =>
      if copied ∧ s.card ≠ ethNodeHashSize then
        (insert (host.setActive true) s,[⟨0,none,if notify then {host.setActive true} else 0⟩])
      else (s,[⟨-1,none,0⟩])
  | .delete host notify =>
    match host with
    | none => (s,[⟨-1,none,0⟩])
    | some host =>
      match deviceOf s host with
      | none => (s,[⟨0,none,0⟩])
      | some d => (s.erase d,[⟨0,none,if notify then {d.setActive false} else 0⟩])
  | .deleteAll notify =>
    (∅,[⟨0,none,if notify then s.val.map (EthDevice.setActive false) else 0⟩])
  | .sendAll => (s,[⟨0,none,s.val⟩])

/-- No stored MAC is added once more, and a deletion empties a slot on no other device's
way. -/
def ProperCall (list : HostTable) : TableCall → Prop
  | .add copied host _ =>
    copied = true → ∀ d ∈ host, ∀ i, ∀ e ∈ list i, e.ethDevMacAddress ≠ d.ethDevMacAddress
  | .delete host _ => EmptiesUnused host list
  | _ => True

instance (list : HostTable) : DecidablePred (ProperCall list)
  | .find _ => .isTrue trivial
  | .add _ _ _ => inferInstanceAs (Decidable (_ → ∀ _ ∈ _, ∀ _, ∀ _ ∈ _, _))
  | .delete _ _ => inferInstanceAs (Decidable (∀ _ ∈ _, _))
  | .deleteAll _ => .isTrue trivial
  | .sendAll => .isTrue trivial

structure StandsFor (list : HostTable) (s : Finset EthDevice) : Prop where
  complete : LookupComplete list
  unique : NoDuplicateHosts list
  contents : contents list = s

variable {list : HostTable} {s : Finset EthDevice}

theorem standsFor_empty : StandsFor emptyHosts ∅ :=
  ⟨complete_emptyHosts,uniqueKeys_empty,contents_empty⟩

theorem StandsFor.found (h : StandsFor list s) (host : EthDevice) :
    (findHost (some host) list).bind list = deviceOf s host := by
  rw [deviceOf,← h.contents]
  cases hf : findHost (some host) list with
  | some i =>
    exact (recordOf_contents h.unique ((findHost_eq_some_iff host list i).mp hf)).symm
  | none =>
    refine (recordOf_eq_none_iff.mpr fun d hd hm => ?_).symm
    obtain ⟨i,hi⟩ := mem_contents.mp hd
    have hsome := (h.complete host).mpr ⟨i,d,hi,hm⟩
    simp [hf] at hsome

theorem StandsFor.full_iff (h : StandsFor list s) :
    s.card = ethNodeHashSize ↔ ∀ i, list i ≠ none := by
  rw [← h.contents]
  exact card_contents_eq_iff h.unique

theorem StandsFor.add (h : StandsFor list s) {copied : Bool} {host : Option EthDevice}
    {notify : Bool} (hproper : ProperCall list (.add copied host notify)) :
    StandsFor (tableCall list (.add copied host notify)).1
        (setCall s (.add copied host notify)).1 ∧
      (tableCall list (.add copied host notify)).2 = (setCall s (.add copied host notify)).2 := by
  cases host with
  | none => exact ⟨h,rfl⟩
  | some host =>
    cases copied with
    | false => exact ⟨by simpa [tableCall,setCall,addHost] using h,rfl⟩
    | true =>
      by_cases hfull : ∀ i, list i ≠ none
      · have hcall := addHost_full true notify host hfull
        have hcard := h.full_iff.mpr hfull
        simp only [tableCall,setCall,hcall,hcard,ne_eq,not_true_eq_false,and_false,if_false]
        exact ⟨h,rfl⟩
      · have hcard := h.full_iff.not.mpr hfull
        simp only [not_forall,not_not] at hfull
        obtain ⟨i,hfirst⟩ := exists_firstFree hfull (homeSlot host.ethDevMacAddress)
        have hcall := addHost_firstFree true notify host hfirst
        have hfree : list i = none := by simpa using hfirst.1
        have hcomplete := complete_addHost true true (some host) list notify h.complete
        have hnew : ¬ Stored EthDevice.ethDevMacAddress list host.ethDevMacAddress := by
          rintro ⟨j,e,he,hm⟩
          exact hproper rfl host rfl j e he hm
        rw [hcall] at hcomplete
        simp only [tableCall,setCall,hcall,hcard,ne_eq,not_false_eq_true,and_self,if_true]
        refine ⟨⟨hcomplete,uniqueKeys_insert h.unique hnew,?_⟩,?_⟩
        · rw [contents_insert hfree,h.contents]
          rfl
        · cases notify <;> rfl

theorem StandsFor.delete (h : StandsFor list s) {host : Option EthDevice} {notify : Bool}
    (hproper : ProperCall list (.delete host notify)) :
    StandsFor (tableCall list (.delete host notify)).1 (setCall s (.delete host notify)).1 ∧
      (tableCall list (.delete host notify)).2 = (setCall s (.delete host notify)).2 := by
  cases host with
  | none => exact ⟨h,rfl⟩
  | some host =>
    have hcomplete := (complete_deleteHost_iff true (some host) list notify h.complete).mpr hproper
    have hfound := h.found host
    rcases deleteHost_cases true host list notify with ⟨hnone,heq⟩ | ⟨i,d,hd,hf,hm,heq⟩
    · rw [hnone,Option.bind_none] at hfound
      simp only [tableCall,setCall,heq,← hfound]
      exact ⟨h,rfl⟩
    · rw [hf,Option.bind_some,Option.mem_def.mp hd] at hfound
      rw [heq] at hcomplete
      simp only [tableCall,setCall,heq,← hfound]
      refine ⟨⟨hcomplete,uniqueKeys_erase h.unique,?_⟩,?_⟩
      · rw [contents_erase h.unique hd,h.contents]
      · cases notify <;> rfl

theorem StandsFor.deleteAll (h : StandsFor list s) (notify : Bool) :
    (tableCall list (.deleteAll notify)).2 = (setCall s (.deleteAll notify)).2 := by
  simp only [tableCall,setCall]
  cases notify with
  | false => rw [deleteAllHosts_silent]; rfl
  | true =>
    rw [deleteAllHosts_snd,← h.contents,contents_val h.unique,if_pos rfl,Multiset.map_coe,
      List.map_filterMap]
    rfl

theorem table_simulates_set : Simulates tableCall setCall ProperCall StandsFor := by
  intro list s call h hproper
  cases call with
  | find host =>
    exact ⟨h,by simp only [tableCall,setCall,h.found]⟩
  | add copied host notify => exact h.add hproper
  | delete host notify => exact h.delete hproper
  | deleteAll notify =>
    refine ⟨?_,h.deleteAll notify⟩
    simp only [tableCall,setCall,deleteAllHosts_fst]
    exact standsFor_empty
  | sendAll =>
    refine ⟨h,?_⟩
    simp only [tableCall,setCall]
    rw [← h.contents,contents_val h.unique]
    rfl

/-- In a run of proper calls from the empty table, each call returns, finds and announces
the same as on the set. -/
theorem host_table_refines_set (calls : List TableCall)
    (hproper : Meets (silent tableCall) ProperCall emptyHosts calls) :
    (exec (logged tableCall) (emptyHosts,[]) calls).2 =
      (exec (logged setCall) (∅,[]) calls).2 :=
  (table_simulates_set.run standsFor_empty [] hproper).2

theorem host_table_refines_set_colliding :
    (exec (logged tableCall) (emptyHosts,[])
        [.add true (some hostA) true,.add true (some hostB) true,.find hostB,
          .delete (some hostB) true,.sendAll,.deleteAll true]).2 =
      (exec (logged setCall) (∅,[])
        [.add true (some hostA) true,.add true (some hostB) true,.find hostB,
          .delete (some hostB) true,.sendAll,.deleteAll true]).2 :=
  host_table_refines_set _ (by decide +kernel)

end EthAgent
