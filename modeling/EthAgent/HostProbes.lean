import EthAgent.HostTable
import EthAgent.Lib.Loops

/-!
The loops of `CcspHalExtSw_FindHost` and `CcspHalExtSw_AddHost` probe by probe: they
stop within one round of the table, and a device is added to the first free slot.
-/

set_option autoImplicit false

namespace EthAgent
open CString Probing Loops

/-- One round of the loop of `CcspHalExtSw_FindHost`, which looks at one slot. -/
def findHostProbe (list : HostTable) (recvMacId : Buf 18) (startIndex hashIndex : Slot) :
    Option Slot ⊕ Slot :=
  match list hashIndex with
  | none => .inl none
  | some host =>
    if macId host.ethDevMacAddress = recvMacId then .inl (some hashIndex)
    else if startIndex = next hashIndex then .inl none
    else .inr (next hashIndex)

/-- One round of the loop of `CcspHalExtSw_AddHost`: the slot to be filled, if there is
one. -/
def addHostProbe (list : HostTable) (startIndex hashIndex : Slot) : Option Slot ⊕ Slot :=
  match list hashIndex with
  | none => .inl (some hashIndex)
  | some _ => if startIndex = next hashIndex then .inl none else .inr (next hashIndex)

/-- A loop that goes on to the next slot only, and never to where it began, looks at
each slot once at most. -/
theorem leaves_of_probes {β : Type} {probe : Slot → β ⊕ Slot} {startIndex : Slot}
    (hprobe : ∀ i i', probe i = .inr i' → i' = next i ∧ next i ≠ startIndex) :
    ∃ n r, n ≤ ethNodeHashSize ∧ Leaves probe startIndex n r := by
  have hround : ∀ i i', probe i = .inr i' →
      ethNodeHashSize-1-dist startIndex i' < ethNodeHashSize-1-dist startIndex i := by
    intro i i' h
    obtain ⟨rfl,hne⟩ := hprobe i i' h
    have hnext := dist_next hne
    have hlt := dist_lt startIndex (next i)
    omega
  obtain ⟨n,r,hn,hleaves⟩ := leaves_of_variant hround startIndex
  refine ⟨n,r,hn.trans ?_,hleaves⟩
  rw [dist_self]
  decide

theorem findHostProbe_next {list : HostTable} {recvMacId : Buf 18} {startIndex i i' : Slot}
    (h : findHostProbe list recvMacId startIndex i = .inr i') :
    i' = next i ∧ next i ≠ startIndex := by
  unfold findHostProbe at h
  split at h
  · exact absurd h (by simp)
  · split at h
    · exact absurd h (by simp)
    · split at h
      · exact absurd h (by simp)
      · rename_i hne
        exact ⟨(Sum.inr.inj h).symm,Ne.symm hne⟩

theorem addHostProbe_next {list : HostTable} {startIndex i i' : Slot}
    (h : addHostProbe list startIndex i = .inr i') : i' = next i ∧ next i ≠ startIndex := by
  unfold addHostProbe at h
  split at h
  · exact absurd h (by simp)
  · split at h
    · exact absurd h (by simp)
    · rename_i hne
      exact ⟨(Sum.inr.inj h).symm,Ne.symm hne⟩

theorem findHostLoop_succ (list : HostTable) (recvMacId : Buf 18) (startIndex : Slot)
    (fuel : Nat) (i : Slot) :
    findHostLoop list recvMacId startIndex (fuel+1) i =
      (findHostProbe list recvMacId startIndex i).elim id
        (findHostLoop list recvMacId startIndex fuel) := by
  unfold findHostProbe
  cases hl : list i with
  | none => simp [findHostLoop,hl]
  | some host =>
    by_cases hm : macId host.ethDevMacAddress = recvMacId
    · simp [findHostLoop,hl,hm]
    · by_cases hs : startIndex = next i
      · simp [findHostLoop,hl,hm,hs.symm]
      · simp [findHostLoop,hl,hm,hs,Ne.symm hs]

theorem addHostLoop_succ (list : HostTable) (startIndex : Slot) (fuel : Nat) (i : Slot) :
    addHostLoop list startIndex (fuel+1) i =
      (addHostProbe list startIndex i).elim id (addHostLoop list startIndex fuel) := by
  unfold addHostProbe
  cases hl : list i with
  | none => simp [addHostLoop,hl]
  | some host =>
    by_cases hs : startIndex = next i
    · simp [addHostLoop,hl,hs.symm]
    · simp [addHostLoop,hl,hs,Ne.symm hs]

theorem findHostLoop_stops (list : HostTable) (recvMacId : Buf 18) (startIndex : Slot) :
    ∃ n, n ≤ ethNodeHashSize ∧ Leaves (findHostProbe list recvMacId startIndex) startIndex n
      (findHostLoop list recvMacId startIndex ethNodeHashSize startIndex) := by
  have hprobe : ∀ i i', findHostProbe list recvMacId startIndex i = .inr i' →
      i' = next i ∧ next i ≠ startIndex := fun _ _ => findHostProbe_next
  obtain ⟨n,r,hn,hleaves⟩ := leaves_of_probes hprobe
  rw [hleaves.eq_of_fuel (findHostLoop_succ list recvMacId startIndex) hn]
  exact ⟨n,hn,hleaves⟩

theorem addHostLoop_stops (list : HostTable) (startIndex : Slot) :
    ∃ n, n ≤ ethNodeHashSize ∧ Leaves (addHostProbe list startIndex) startIndex n
      (addHostLoop list startIndex ethNodeHashSize startIndex) := by
  have hprobe : ∀ i i', addHostProbe list startIndex i = .inr i' →
      i' = next i ∧ next i ≠ startIndex := fun _ _ => addHostProbe_next
  obtain ⟨n,r,hn,hleaves⟩ := leaves_of_probes hprobe
  rw [hleaves.eq_of_fuel (addHostLoop_succ list startIndex) hn]
  exact ⟨n,hn,hleaves⟩

abbrev FirstFree (list : HostTable) (startIndex i : Slot) : Prop :=
  First (fun j => (list j).isNone) startIndex i

theorem addHost_firstFree (registered notify : Bool) (host : EthDevice) {list : HostTable}
    {i : Slot} (hi : FirstFree list (homeSlot host.ethDevMacAddress) i) :
    addHost registered true (some host) list notify =
      ⟨0,Function.update list i (some { host with ethActive := true }),
        if registered && notify then [{ host with ethActive := true }] else []⟩ := by
  have hloop := addHostLoop_eq_scan list (homeSlot host.ethDevMacAddress) ethNodeHashSize
    (homeSlot host.ethDevMacAddress)
  rw [(scan_eq_some_iff _ _ i).mpr hi,homeSlot] at hloop
  simp only [addHost,if_true,hloop]

theorem addHost_full (registered notify : Bool) (host : EthDevice) {list : HostTable}
    (hfull : ∀ i, list i ≠ none) :
    addHost registered true (some host) list notify = ⟨-1,list,[]⟩ := by
  rcases addHost_cases registered true host list notify with heq | ⟨i,hfree,-⟩
  · exact heq
  · exact absurd hfree (hfull i)

theorem exists_firstFree {list : HostTable} (h : ∃ i, list i = none) (startIndex : Slot) :
    ∃ i, FirstFree list startIndex i := by
  rcases scan_spec (fun j => (list j).isNone) startIndex ethNodeHashSize startIndex (by simp)
    (by simp) with ⟨i,-,hfirst⟩ | ⟨-,hall⟩
  · exact ⟨i,hfirst⟩
  · obtain ⟨i,hi⟩ := h
    exact absurd (hall i) (by simp [hi])

/-- A device is added exactly if some slot is free, to the first free one from its home
slot on, and both loops stop within as many probes as there are slots. -/
theorem host_added_to_first_free (registered notify : Bool) (host : EthDevice)
    (list : HostTable) :
    ((addHost registered true (some host) list notify).ret = 0 ↔ ∃ i, list i = none) ∧
      ((∃ i, list i = none) → ∃ i, FirstFree list (homeSlot host.ethDevMacAddress) i ∧
        addHost registered true (some host) list notify =
          ⟨0,Function.update list i (some { host with ethActive := true }),
            if registered && notify then [{ host with ethActive := true }] else []⟩) ∧
      ((∀ i, list i ≠ none) →
        addHost registered true (some host) list notify = ⟨-1,list,[]⟩) ∧
      (∃ n, n ≤ 256 ∧ Leaves
        (findHostProbe list (macId host.ethDevMacAddress) (homeSlot host.ethDevMacAddress))
          (homeSlot host.ethDevMacAddress) n (findHost (some host) list)) ∧
      ∃ n, n ≤ 256 ∧ Leaves (addHostProbe list (homeSlot host.ethDevMacAddress))
        (homeSlot host.ethDevMacAddress) n
        (addHostLoop list (homeSlot host.ethDevMacAddress) 256
          (homeSlot host.ethDevMacAddress)) := by
  refine ⟨⟨fun h => ?_,fun h => ?_⟩,fun h => ?_,addHost_full registered notify host,
    findHostLoop_stops list _ _,addHostLoop_stops list _⟩
  · by_contra hnone
    rw [addHost_full registered notify host fun i hi => hnone ⟨i,hi⟩] at h
    exact absurd h (by simp)
  · obtain ⟨i,hi⟩ := exists_firstFree h (homeSlot host.ethDevMacAddress)
    rw [addHost_firstFree registered notify host hi]
  · obtain ⟨i,hi⟩ := exists_firstFree h (homeSlot host.ethDevMacAddress)
    exact ⟨i,hi,addHost_firstFree registered notify host hi⟩

end EthAgent
