import EthAgent.InterfaceTable

/-!
Where `Upstream` of a port is kept: a record of PSM for each port and one flag in
syscfg, which is read back for erouter0 alone. `EthInterfaceSetUpstream` writes both,
and the initialisation reads them over what the table holds by default.
-/

set_option autoImplicit false

namespace EthAgent
open CString

structure UpstreamState where
  halEthWanEnable : Bool
  kept : Persistent

/-- Whether `CcspHalExtSw_setEthWanEnable`, `syscfg_set_u_commit` and
`PSM_Set_Record_Value2` succeed. -/
structure UpstreamAnswers where
  setEthWanEnable : Bool
  syscfgSetCommit : Bool
  psmSet : Bool

def cosaDmlSetWanOEMode (s : UpstreamState) (row : PortFull) (a : UpstreamAnswers) :
    Bool × UpstreamState :=
  if a.setEthWanEnable then
    let s := { s with halEthWanEnable := row.bUpstream }
    if a.syscfgSetCommit then
      let disabled := decimal (if row.bUpstream then 0 else 1)
      (true,{ s with kept := { s.kept with ethwanDisableUpstream := some disabled } })
    else (false,s)
  else (false,s)

def psmFalse : Text := "FALSE".toList

def ethInterfaceSetUpstream (s : UpstreamState) (row : PortFull) (a : UpstreamAnswers) :
    Bool × UpstreamState :=
  match cosaDmlSetWanOEMode s row a with
  | (false,s) => (false,s)
  | (true,s) =>
    if a.psmSet then
      let key := psmCfgUpstream row.cfg.instanceNumber
      let value := if row.bUpstream then psmTrue else psmFalse
      (true,{ s with kept := { s.kept with psm := Function.update s.kept.psm key (some value) } })
    -- the status of PSM is not looked at
    else (true,s)

def upstreamAfterInit (b : TableBuild) (s : Persistent) (a : InitAnswers)
    (t : InterfaceTables) (i : Nat) : Option Bool :=
  (cosaDmlEthInterfaceInit b s a t).bind fun t => t.ethIntSInfo[i]?.map fun p => p.bUpstream

/-- What is kept after a Set in which every call succeeds. -/
def keptAfterSet (s : UpstreamState) (row : PortFull) : Persistent :=
  (ethInterfaceSetUpstream s row ⟨true,true,true⟩).2.kept

/-- The port comes back as it was set, and every other one as it would have. -/
def UpstreamKept (b : TableBuild) (s : UpstreamState) (a : InitAnswers) (t : InterfaceTables)
    (i : Nat) (row : PortFull) : Prop :=
  upstreamAfterInit b (keptAfterSet s row) a t i = some row.bUpstream ∧
  ∀ j, j ≠ i →
    upstreamAfterInit b (keptAfterSet s row) a t j = upstreamAfterInit b s.kept a t j

/-- Of a port that is not erouter0 the record can only set the flag, and the flag of
syscfg belongs to erouter0. -/
structure UpstreamFits (b : TableBuild) (s : UpstreamState) (a : InitAnswers)
    (t : InterfaceTables) (i : Nat) (row : PortFull) : Prop where
  port : ∀ u p, loadTables b s.kept a t = some u → u.ethIntSInfo[i]? = some p →
    p.name.text = wanRouting ∨ row.bUpstream = true ∨ p.bUpstream = false
  others : ∀ u j p, loadTables b s.kept a t = some u → j ≠ i → u.ethIntSInfo[j]? = some p →
    p.name.text = wanRouting → getSystemUpstream s.kept = row.bUpstream

section Records

theorem getLast?_psmRecord (row : Nat) (param : Text) :
    (psmRecord row param).getLast? = some (param.getLast?.getD '.') := by
  unfold psmRecord
  generalize "dmsb.ethagent.if.".toList = rows
  simp [List.getLast?_append,List.getLast?_cons]

/-- No other record that is read has a name that ends like this one. -/
theorem ne_psmCfgUpstream {key : Text} {c : Char} (hlast : key.getLast? = some c) (hc : c ≠ 'm')
    (row : Nat) : key ≠ psmCfgUpstream row := by
  rintro rfl
  rw [psmCfgUpstream,getLast?_psmRecord] at hlast
  exact hc (Option.some_inj.mp hlast).symm

theorem psmCfgUpstream_injective {i j : Nat} (h : psmCfgUpstream i = psmCfgUpstream j) :
    i = j := by
  unfold psmCfgUpstream psmRecord at h
  generalize "dmsb.ethagent.if.".toList = rows at h
  rw [List.append_assoc,List.append_assoc] at h
  exact decimal_injective (List.append_cancel_right (List.append_cancel_left h))

end Records

section Set

variable (s : UpstreamState) (row : PortFull)

theorem keptAfterSet_psm :
    (keptAfterSet s row).psm = Function.update s.kept.psm
      (psmCfgUpstream row.cfg.instanceNumber)
      (some (if row.bUpstream then psmTrue else psmFalse)) := rfl

theorem getSystemUpstream_keptAfterSet :
    getSystemUpstream (keptAfterSet s row) = row.bUpstream := by
  have hkept : (keptAfterSet s row).ethwanDisableUpstream =
      some (decimal (if row.bUpstream then 0 else 1)) := rfl
  unfold getSystemUpstream
  rw [hkept]
  cases row.bUpstream <;> decide

theorem loadTables_keptAfterSet (b : TableBuild) (a : InitAnswers) (t : InterfaceTables) :
    loadTables b (keptAfterSet s row) a t = loadTables b s.kept a t := by
  have hread : ∀ {key : Text} {c : Char}, key.getLast? = some c → c ≠ 'm' →
      dmlEthGetPSMRecordValue (keptAfterSet s row).psm key =
        dmlEthGetPSMRecordValue s.kept.psm key := by
    intro key c hlast hc
    rw [dmlEthGetPSMRecordValue,dmlEthGetPSMRecordValue,keptAfterSet_psm,
      Function.update_of_ne (ne_psmCfgUpstream hlast hc _)]
  have hrow : loadRow (keptAfterSet s row).psm = loadRow s.kept.psm := by
    funext i hwid
    have hname := hread (getLast?_psmRecord (i+1) "Name".toList) (by decide)
    have hflag := hread (getLast?_psmRecord (i+1) "IsLinuxAPI".toList) (by decide)
    rw [loadRow,loadRow,psmCfgName,psmCfgIsLinuxApi,hname,hflag]
  have hforEth := hread (show psmCfgForEth.getLast? = some 'h' by decide) (by decide)
  have hcount := hread (show psmCfgCount.getLast? = some 't' by decide) (by decide)
  rw [loadTables,loadTables,loadInterfaceTable,loadInterfaceTable,hforEth,hcount,hrow]

theorem initUpstream_keptAfterSet {i : Nat} (hrow : row.cfg.instanceNumber = i+1) (p : SInfo) :
    (initUpstream (keptAfterSet s row) i p).bUpstream = row.bUpstream ↔
      p.name.text = wanRouting ∨ row.bUpstream = true ∨ p.bUpstream = false := by
  unfold initUpstream
  by_cases hrouting : p.name.text = wanRouting
  · simp [hrouting,getSystemUpstream_keptAfterSet]
  · rw [if_neg hrouting,keptAfterSet_psm,hrow,Function.update_self]
    cases hvalue : row.bUpstream with
    | true => simp
    | false =>
      have hne : some psmFalse ≠ some psmTrue := by decide
      simp [hne,hrouting]

/-- The records of the other ports stay; what erouter0 gets is what was set. -/
theorem initUpstream_keptAfterSet_of_ne {i j : Nat} (hrow : row.cfg.instanceNumber = i+1)
    (hij : j ≠ i) (p : SInfo) :
    (initUpstream (keptAfterSet s row) j p).bUpstream =
        (initUpstream s.kept j p).bUpstream ↔
      (p.name.text = wanRouting → getSystemUpstream s.kept = row.bUpstream) := by
  unfold initUpstream
  by_cases hrouting : p.name.text = wanRouting
  · simp [hrouting,getSystemUpstream_keptAfterSet,eq_comm]
  · have hkey : psmCfgUpstream (j+1) ≠ psmCfgUpstream (i+1) := fun h =>
      hij (Nat.succ_injective (psmCfgUpstream_injective h))
    rw [if_neg hrouting,if_neg hrouting,keptAfterSet_psm,hrow,Function.update_of_ne hkey]
    simp [hrouting]

end Set

section Init

variable {b : TableBuild} {s : Persistent} {a : InitAnswers} {t u : InterfaceTables}

theorem upstreamAfterInit_eq (hup : b.wanUpstream = true) (hload : loadTables b s a t = some u)
    (hfill : ∃ t', fillTables b s a u = some t') (i : Nat) :
    upstreamAfterInit b s a t i =
      u.ethIntSInfo[i]?.map fun p => (initUpstream s i p).bUpstream := by
  obtain ⟨t',ht'⟩ := hfill
  have hinit : cosaDmlEthInterfaceInit b s a t = some t' := by
    rw [cosaDmlEthInterfaceInit,hload,Option.bind_some,ht']
  have hsInfo : t'.ethIntSInfo = fillSInfo b s a u.ethIntSInfo := by
    unfold fillTables at ht'
    simp only [Option.map_eq_some_iff] at ht'
    obtain ⟨l,-,rfl⟩ := ht'
    rfl
  rw [upstreamAfterInit,hinit,Option.bind_some,← List.getElem?_map,hsInfo,fillSInfo,
    map_initMacs (fun p m => rfl),if_pos hup,List.getElem?_map,List.getElem?_mapIdx,
    Option.map_map]
  rfl

theorem fillTables_keptAfterSet {s : UpstreamState} (row : PortFull)
    (hfill : ∃ t', fillTables b s.kept a u = some t') :
    ∃ t', fillTables b (keptAfterSet s row) a u = some t' := by
  rw [exists_fillTables_iff] at hfill ⊢
  exact hfill

end Init

/-- A Set of `Upstream` outlasts the initialisation exactly when the table does not put
its default over it, and it is one of erouter0 or agrees with the flag of erouter0. -/
theorem upstream_kept_iff {b : TableBuild} (hup : b.wanUpstream = true) (s : UpstreamState)
    (a : InitAnswers) (t : InterfaceTables) (i : Nat) (row : PortFull)
    (hrow : row.cfg.instanceNumber = i+1)
    (hport : (upstreamAfterInit b s.kept a t i).isSome = true) :
    UpstreamKept b s a t i row ↔ UpstreamFits b s a t i row := by
  obtain ⟨u,hload,hfill⟩ : ∃ u, loadTables b s.kept a t = some u ∧
      ∃ t', fillTables b s.kept a u = some t' := by
    obtain ⟨v,hv⟩ := Option.isSome_iff_exists.mp hport
    obtain ⟨t',ht',-⟩ := Option.bind_eq_some_iff.mp hv
    obtain ⟨u,hu,hfill⟩ := Option.bind_eq_some_iff.mp ht'
    exact ⟨u,hu,t',hfill⟩
  have hbefore := upstreamAfterInit_eq hup hload hfill
  have hafter := upstreamAfterInit_eq hup ((loadTables_keptAfterSet s row b a t).trans hload)
    (fillTables_keptAfterSet row hfill)
  unfold UpstreamKept
  simp only [hafter,hbefore]
  rw [hbefore] at hport
  obtain ⟨p,hp⟩ : ∃ p, u.ethIntSInfo[i]? = some p := by
    simpa [Option.isSome_iff_exists] using hport
  constructor
  · rintro ⟨hself,hothers⟩
    rw [hp,Option.map_some,Option.some_inj] at hself
    constructor
    · intro u' p' hu' hp'
      obtain rfl := Option.some_inj.mp (hload.symm.trans hu')
      obtain rfl := Option.some_inj.mp (hp.symm.trans hp')
      exact (initUpstream_keptAfterSet s row hrow p).mp hself
    · intro u' j p' hu' hj hp'
      obtain rfl := Option.some_inj.mp (hload.symm.trans hu')
      have hsame := hothers j hj
      rw [hp',Option.map_some,Option.map_some,Option.some_inj] at hsame
      exact (initUpstream_keptAfterSet_of_ne s row hrow hj p').mp hsame
  · intro h
    constructor
    · rw [hp,Option.map_some,(initUpstream_keptAfterSet s row hrow p).mpr (h.port u p hload hp)]
    · intro j hj
      cases hp' : u.ethIntSInfo[j]? with
      | none => rfl
      | some p' =>
        rw [Option.map_some,Option.map_some,(initUpstream_keptAfterSet_of_ne s row hrow hj p').mpr
          (h.others u j p' hload hj hp')]

def upstreamBuild : TableBuild := { plainBuild .four with wanUpstream := true }

def upstreamRow (i : Nat) (bUpstream : Bool) : PortFull :=
  ⟨⟨i+1,Buf.store [],true,0,0⟩,bUpstream⟩

theorem upstream_kept_first_port :
    UpstreamKept upstreamBuild ⟨false,nothingKept⟩ plainAnswers (staticTables upstreamBuild) 0
      (upstreamRow 0 true) :=
  (upstream_kept_iff rfl ⟨false,nothingKept⟩ plainAnswers (staticTables upstreamBuild) 0
    (upstreamRow 0 true) rfl (by decide +kernel)).mpr
    ⟨fun _ _ _ _ => .inr (.inl rfl),fun _ _ _ _ _ _ _ => rfl⟩

/-- sw_1, set downstream, takes erouter0 with it, and lbr0 does not stay downstream. -/
theorem upstream_of_other_port_changes :
    ¬UpstreamKept upstreamBuild ⟨false,nothingKept⟩ plainAnswers (staticTables upstreamBuild) 0
        (upstreamRow 0 false) ∧
      ¬UpstreamKept upstreamBuild ⟨false,nothingKept⟩ plainAnswers
        (staticTables upstreamBuild) 5 (upstreamRow 5 false) := by
  constructor <;> intro h
  · exact absurd (h.2 4 (by decide)) (by decide +kernel)
  · exact absurd h.1 (by decide +kernel)

end EthAgent
