import EthAgent.PathLookup

/-!
The SSID scan of `CosaUtilGetLowerLayers`, lookup by lookup: the bus answers each of
them anew, and the instance number is a `ULONG` that wraps.
-/

set_option autoImplicit false

namespace EthAgent
open CString SparseScan

variable {w : Nat}

/-- The loop over the SSIDs from a lookup on, which is the one of `ulEntryInstanceNum`;
`none` without fuel. -/
def ssidLookups (reply : Nat → Option Text) (keyword : Text) (ulNumOfEntries : Nat) :
    Nat → Nat → BitVec w → Nat → Text → Option TableScan
  | 0, _, _, _, _ => none
  | fuel+1, lookup, ulEntryInstanceNum, i, buf =>
    if i < ulNumOfEntries then
      match reply lookup with
      | none =>
        ssidLookups reply keyword ulNumOfEntries fuel (lookup+1) (ulEntryInstanceNum+1) i []
      | some value =>
        if value = keyword then some (.matched (ssidPath ulEntryInstanceNum.toNat))
        else
          ssidLookups reply keyword ulNumOfEntries fuel (lookup+1) (ulEntryInstanceNum+1) (i+1)
            value
    else some (.unmatched buf)

def ssidInstance (w lookup : Nat) : BitVec w := BitVec.ofNat w (lookup+1)

/-- What a scan has to give: the path of the first SSID with the name, of those that are
announced and exist. -/
def FirstAnnounced (w : Nat) (reply : Nat → Option Text) (keyword : Text)
    (ulNumOfEntries : Nat) (path : Option Text) : Prop :=
  ∃ r, IsFirst reply (fun value => value = keyword) ulNumOfEntries r ∧
    path = r.map fun k => ssidPath (ssidInstance w k).toNat

/-- The scan ends, and gives that path if the announced number of SSIDs exists. -/
def SsidScanEnds (w : Nat) (reply : Nat → Option Text) (keyword : Text)
    (ulNumOfEntries : Nat) (buf : Text) : Prop :=
  ∃ fuel s, ssidLookups reply keyword ulNumOfEntries fuel 0 (1#w) 0 buf = some s ∧
    ((∃ k, ulNumOfEntries ≤ answersBefore reply k) →
      FirstAnnounced w reply keyword ulNumOfEntries s.path)

theorem ssidInstance_succ (w lookup : Nat) :
    ssidInstance w lookup+1 = ssidInstance w (lookup+1) := by
  apply BitVec.eq_of_toNat_eq
  simp [ssidInstance]

theorem ssidLookups_path (reply : Nat → Option Text) (keyword : Text)
    (ulNumOfEntries fuel lookup i : Nat) (buf : Text) :
    (ssidLookups reply keyword ulNumOfEntries fuel lookup (ssidInstance w lookup) i buf).map
        TableScan.path =
      (scanPlaces reply (fun value => value = keyword) ulNumOfEntries fuel lookup i).map
        (Option.map fun k => ssidPath (ssidInstance w k).toNat) := by
  induction fuel generalizing lookup i buf with
  | zero => rfl
  | succ fuel ih =>
    rw [ssidLookups,scanPlaces]
    simp only [ssidInstance_succ]
    split
    · cases reply lookup with
      | none => exact ih (lookup+1) i []
      | some value =>
        by_cases hvalue : value = keyword
        · simp [hvalue,TableScan.path]
        · simpa [hvalue] using ih (lookup+1) (i+1) value
    · rfl

/-- The scan ends exactly if one of the announced SSIDs that exist has the name, or the
announced number of them exists. -/
theorem ssid_scan_ends_iff (w : Nat) (reply : Nat → Option Text) (keyword : Text)
    (ulNumOfEntries : Nat) (buf : Text) :
    SsidScanEnds w reply keyword ulNumOfEntries buf ↔
      (∃ k, reply k = some keyword ∧ answersBefore reply k < ulNumOfEntries) ∨
        ∃ k, ulNumOfEntries ≤ answersBefore reply k := by
  have hbounded : Bounded reply (fun value => value = keyword) ulNumOfEntries ↔
      (∃ k, reply k = some keyword ∧ answersBefore reply k < ulNumOfEntries) ∨
        ∃ k, ulNumOfEntries ≤ answersBefore reply k := by
    simp [Bounded,WantedAt]
  have hfollows := fun fuel => ssidLookups_path (w := w) reply keyword ulNumOfEntries fuel 0 0 buf
  rw [← hbounded,SsidScanEnds,← ends_iff_of_follows hfollows]
  constructor
  · rintro ⟨fuel,s,hs,-⟩
    exact ⟨fuel,s,hs⟩
  · rintro ⟨fuel,s,hs⟩
    exact ⟨fuel,s,hs,fun _ => first_of_follows hfollows hs⟩

/-- One SSID is announced, and no lookup finds it. -/
theorem ssid_scan_endless :
    ¬ ∀ (w : Nat) (reply : Nat → Option Text) (keyword : Text) (ulNumOfEntries : Nat)
        (buf : Text), SsidScanEnds w reply keyword ulNumOfEntries buf := by
  intro h
  obtain ⟨fuel,s,hs,-⟩ := h 64 (fun _ => none) "ath0".toList 1 []
  have hbounded := (ends_iff_of_follows fun fuel =>
    ssidLookups_path (w := 64) (fun _ => none) "ath0".toList 1 fuel 0 0 []).mp ⟨fuel,s,hs⟩
  have hcount : ∀ k, answersBefore (fun _ => (none : Option Text)) k = 0 := by
    intro k
    simp [answersBefore]
  rcases hbounded with ⟨k,⟨a,ha,-⟩,-⟩ | ⟨k,hk⟩
  · cases ha
  · rw [hcount] at hk
    omega

/-- Over a bus that always answers alike, and until the instance number wraps, it is the
loop of the path lookup. -/
theorem ssidLookups_bus (bus : Bus) (keyword : Text) (ulNumOfEntries fuel lookup i : Nat)
    (buf : Text) (hwrap : lookup+fuel < 2^w) :
    ssidLookups (ssidName bus) keyword ulNumOfEntries fuel lookup (ssidInstance w lookup) i buf =
      ssidLoop bus keyword ulNumOfEntries fuel (lookup+1) i buf := by
  induction fuel generalizing lookup i buf with
  | zero => rfl
  | succ fuel ih =>
    have hins : (ssidInstance w lookup).toNat = lookup+1 := by
      rw [ssidInstance,BitVec.toNat_ofNat]
      exact Nat.mod_eq_of_lt (by omega)
    have hname : ssidName bus lookup = bus.getParamValueByPathName (ssidParam (lookup+1)) := rfl
    rw [ssidLookups,ssidLoop,ssidInstance_succ,hname]
    cases bus.getParamValueByPathName (ssidParam (lookup+1)) with
    | none => simp only [ih (lookup+1) i [] (by omega)]
    | some value => simp only [ih (lookup+1) (i+1) value (by omega),hins]

end EthAgent
