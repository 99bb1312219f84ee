import EthAgent.InterfaceTable

/-!
The Alias and the instance number of an entry over a restart: syscfg keeps both,
`CosaDmlEthInterfaceInit` reads them into the entry, and the loop of
`CosaEthInterfaceInitialize` decides about each row whether it has them already.
-/

set_option autoImplicit false

namespace EthAgent
open CString Packed Filling Runs

/-- A port as `CosaDmlEthInterfaceInit` leaves its entry. -/
def loadedEntry (anscGetStringUlong : Text → Nat) (tickInSeconds : Nat) (q : InitPort) :
    Option PortEntry :=
  let rawGet := if q.utopiaInit then q.savedId else none
  (loadID anscGetStringUlong rawGet (Buf.store []) 0).map fun id =>
    ⟨id.2,id.1,tickInSeconds,q.savedId,q.port⟩

/-- `CosaDmlEthPortGetEntry`, which zeroes the row first; no `getCfg` copies the Alias
and the instance number. -/
def cosaDmlEthPortGetEntry (b : InterfaceBuild) (e : PortEntry) (q : InitPort) : PortFull :=
  ⟨getCfg b e.port q.answers ⟨0,Buf.store [],false,0,0⟩,q.bUpstream⟩

def cosaDmlEthPortSetValues (e : PortEntry) (ulInstanceNumber : Nat) (pAlias : Buf 512)
    (utopiaInit : Bool) : PortEntry :=
  { e with
    instanceNumber := ulInstanceNumber
    ifAlias := pAlias
    savedId := if utopiaInit then some (idStr pAlias ulInstanceNumber) else e.savedId }

def initializeLoop (b : InterfaceBuild) :
    (ulNextInsNum : Nat) → List (InitPort × PortEntry) → List (PortEntry × PortFull)
  | _, [] => []
  | ulNextInsNum, (q,e) :: ports =>
    let row := cosaDmlEthPortGetEntry b e q
    if row.cfg.instanceNumber = 0 then
      let ifAlias := interfaceAlias ulNextInsNum
      let cfg := { row.cfg with instanceNumber := ulNextInsNum, ifAlias := ifAlias }
      (cosaDmlEthPortSetValues e ulNextInsNum ifAlias q.utopiaInit,{ row with cfg := cfg }) ::
        initializeLoop b (ulNextInsNum+1) ports
    else (e,row) :: initializeLoop b (row.cfg.instanceNumber+1) ports

def rebuild (anscGetStringUlong : Text → Nat) (b : InterfaceBuild) (tickInSeconds : Nat)
    (table : List InitPort) : Option (List (PortEntry × PortFull)) :=
  (table.mapM (loadedEntry anscGetStringUlong tickInSeconds)).map fun entries =>
    initializeLoop b 1 (table.zip entries)

/-- What a start finds of a port besides the ID that is kept. -/
structure BootPort where
  port : Port
  bUpstream : Bool
  answers : GetAnswers
  utopiaInit : Bool

def bootTable (entries : List PortEntry) (found : Nat → BootPort) : List InitPort :=
  entries.mapIdx fun i e =>
    ⟨(found i).port,(found i).bUpstream,e.savedId,(found i).answers,(found i).utopiaInit⟩

/-- A call of `CosaDmlEthPortSetCfg`. -/
structure PortCommit where
  pCfg : PortCfg
  answers : SetAnswers

def commitStep (b : InterfaceBuild) (entries : List PortEntry) (c : PortCommit) :
    List PortEntry :=
  (cosaDmlEthPortSetCfg b entries c.pCfg c.answers).2

def entriesAfter (b : InterfaceBuild) (tickInSeconds : Nat) (table : List InitPort)
    (commits : List PortCommit) : List PortEntry :=
  exec (commitStep b) (cosaEthInterfaceInitialize b tickInSeconds table).entries commits

def Reappears (ports : List (PortEntry × PortFull)) (i : Nat) (pCfg : PortCfg) : Prop :=
  ∃ e row, ports[i]? = some (e,row) ∧
    (e.ifAlias = pCfg.ifAlias ∧ e.instanceNumber = pCfg.instanceNumber) ∧
    row.cfg.ifAlias = pCfg.ifAlias ∧ row.cfg.instanceNumber = pCfg.instanceNumber

variable {anscGetStringUlong : Text → Nat}

section Saved

/-- `AnscGetStringUlong` reads the digits of an `unsigned long`. -/
def ReadsDecimal (anscGetStringUlong : Text → Nat) : Prop :=
  ∀ n < 2^64, anscGetStringUlong (decimal n) = n

theorem take_idStr (pAlias : Buf 512) (n : Nat) :
    (idStr pAlias n).take 521 =
      pAlias.text ++ ',' :: (decimal n).take (520-pAlias.text.length) := by
  have hfits := pAlias.fits
  have hsucc : 521-pAlias.text.length = (520-pAlias.text.length)+1 := by omega
  rw [idStr,List.append_assoc,List.take_append,List.take_of_length_le (by omega),
    List.singleton_append,hsucc,List.take_succ_cons]

/-- What is stored is what `loadID` reads, if all of it fits and the Alias has no comma. -/
theorem loadID_of_fits (hreads : ReadsDecimal anscGetStringUlong) {pAlias : Buf 512}
    (hcomma : ',' ∉ pAlias.text) {n : Nat} (hn : n < 2^64)
    (hfits : (idStr pAlias n).length < 522) (pAlias' : Buf 512) (n' : Nat) :
    loadID anscGetStringUlong (some (idStr pAlias n)) pAlias' n' = some (pAlias,n) := by
  have hall : ∀ c ∈ pAlias.text, decide (c ≠ ',') = true := fun c hc => by
    simpa using fun he : c = ',' => hcomma (he ▸ hc)
  have htoken : (pAlias.text ++ ',' :: decimal n).takeWhile (· ≠ ',') = pAlias.text := by
    rw [List.takeWhile_append_of_pos hall]
    simp
  have hdrop : (pAlias.text ++ ',' :: decimal n).drop (pAlias.text.length+1) = decimal n := by
    simp
  have hid : idStr pAlias n = pAlias.text ++ ',' :: decimal n := by simp [idStr]
  unfold loadID
  simp only
  rw [List.take_of_length_le (by omega),hid,if_neg (by simp),htoken,dif_pos pAlias.fits,
    hdrop,hreads n hn]

theorem length_idStr (pAlias : Buf 512) (n : Nat) :
    (idStr pAlias n).length = pAlias.text.length+1+(decimal n).length := by
  rw [idStr,List.length_append,List.length_append,List.length_singleton]

theorem idFits_idStr (pAlias : Buf 512) (n : Nat) : IDFits (some (idStr pAlias n)) := by
  rintro _ ⟨⟩
  rw [take_idStr,List.takeWhile_append]
  split
  · simpa using pAlias.fits
  · exact Nat.lt_of_le_of_lt (List.takeWhile_sublist _).length_le pAlias.fits

end Saved

section Loop

theorem getCfg_instanceNumber (b : InterfaceBuild) (port : Port) (a : GetAnswers)
    (pCfg : PortCfg) : (getCfg b port a pCfg).instanceNumber = pCfg.instanceNumber := by
  cases port with
  | switch p =>
    simp only [getCfg,puma6GetSwitchCfg]
    split <;> rfl
  | linux up => rfl

/-- No row has a number yet, so that each gets the next one. -/
theorem initializeLoop_eq (b : InterfaceBuild) (tickInSeconds n : Nat) (table : List InitPort)
    {entries : List PortEntry}
    (h : table.mapM (loadedEntry anscGetStringUlong tickInSeconds) = some entries) :
    initializeLoop b (n+1) (table.zip entries) =
      table.mapIdx fun i q => (initEntry tickInSeconds (n+i) q,initInterface b (n+i) q) := by
  induction table generalizing n entries with
  | nil =>
    obtain rfl := Option.some_inj.mp h
    rfl
  | cons q table ih =>
    rw [mapM_eq_some_iff,List.map_cons] at h
    cases entries with
    | nil => simp at h
    | cons e entries =>
      rw [List.map_cons,List.cons.injEq] at h
      obtain ⟨id,-,rfl⟩ := Option.map_eq_some_iff.mp h.1
      have hzero : (cosaDmlEthPortGetEntry b ⟨id.2,id.1,tickInSeconds,q.savedId,q.port⟩
          q).cfg.instanceNumber = 0 := getCfg_instanceNumber b q.port q.answers _
      rw [List.zip_cons_cons,initializeLoop,if_pos hzero,ih (n+1) (mapM_eq_some_iff.mpr h.2),
        List.mapIdx_cons]
      simp only [Nat.add_zero,Nat.add_assoc,Nat.add_comm 1]
      rfl

theorem rebuild_eq_some {b : InterfaceBuild} {tickInSeconds : Nat} {table : List InitPort}
    {ports : List (PortEntry × PortFull)}
    (h : rebuild anscGetStringUlong b tickInSeconds table = some ports) :
    ports.map Prod.fst = (cosaEthInterfaceInitialize b tickInSeconds table).entries ∧
      ports.map Prod.snd = (cosaEthInterfaceInitialize b tickInSeconds table).rows := by
  obtain ⟨entries,hentries,rfl⟩ := Option.map_eq_some_iff.mp h
  have hloop := initializeLoop_eq b tickInSeconds 0 table hentries
  rw [Nat.zero_add] at hloop
  rw [hloop]
  constructor <;> apply List.ext_getElem <;> simp [cosaEthInterfaceInitialize]

theorem exists_rebuild_iff {b : InterfaceBuild} {tickInSeconds : Nat} {table : List InitPort} :
    (∃ ports, rebuild anscGetStringUlong b tickInSeconds table = some ports) ↔
      ∀ q ∈ table, IDFits (if q.utopiaInit then q.savedId else none) := by
  have hentry : ∀ q, (∃ e, loadedEntry anscGetStringUlong tickInSeconds q = some e) ↔
      IDFits (if q.utopiaInit then q.savedId else none) := fun q => by
    rw [← exists_loadID_iff (Buf.store []) 0]
    unfold loadedEntry
    simp only [Option.map_eq_some_iff]
    constructor
    · rintro ⟨_,id,hid,-⟩
      exact ⟨id,hid⟩
    · rintro ⟨id,hid⟩
      exact ⟨_,id,hid,rfl⟩
  have hmap : (∃ ports, rebuild anscGetStringUlong b tickInSeconds table = some ports) ↔
      ∃ entries, table.mapM (loadedEntry anscGetStringUlong tickInSeconds) = some entries := by
    unfold rebuild
    simp only [Option.map_eq_some_iff]
    constructor
    · rintro ⟨_,entries,hentries,-⟩
      exact ⟨entries,hentries⟩
    · rintro ⟨entries,hentries⟩
      exact ⟨_,entries,hentries,rfl⟩
  rw [hmap,exists_mapM_iff]
  exact forall₂_congr fun q _ => hentry q

end Loop

section Commits

variable {b : InterfaceBuild}

/-- What is kept of every entry can be read again. -/
def SavedFit (entries : List PortEntry) : Prop := ∀ e ∈ entries, IDFits e.savedId

theorem PortEntry.setCfg_savedId (e : PortEntry) (pCfg : PortCfg) (a : SetAnswers)
    (h : IDFits e.savedId) : IDFits (e.setCfg b pCfg a).savedId := by
  unfold PortEntry.setCfg
  simp only
  split <;> split
  all_goals first | exact h | skip
  all_goals
    simp only
    split
    · exact idFits_idStr _ _
    · exact h

theorem SavedFit.commit {entries : List PortEntry} (h : SavedFit entries) (c : PortCommit) :
    SavedFit (commitStep b entries c) := by
  unfold commitStep cosaDmlEthPortSetCfg
  split
  · exact h
  · next i _ =>
    intro e he
    obtain ⟨j,hj⟩ := List.mem_iff_getElem?.mp he
    rw [List.getElem?_modify] at hj
    obtain ⟨e',he',heq⟩ := Option.map_eq_some_iff.mp hj
    have hfits := h e' (List.mem_of_getElem? he')
    rw [← heq]
    split
    · exact e'.setCfg_savedId c.pCfg c.answers hfits
    · exact hfits

theorem numbers_commits (entries : List PortEntry) (cs : List PortCommit) :
    (exec (commitStep b) entries cs).map (fun e => e.instanceNumber) =
      entries.map fun e => e.instanceNumber := by
  induction cs generalizing entries with
  | nil => rfl
  | cons c cs ih => rw [exec_cons,ih,commitStep,setCfg_numbers]

theorem SavedFit.commits {entries : List PortEntry} (h : SavedFit entries)
    (cs : List PortCommit) : SavedFit (exec (commitStep b) entries cs) :=
  exec_inv_all h (fun _ c h => h.commit c) cs

end Commits

section Restart

variable {b : InterfaceBuild} {tickInSeconds : Nat} {table : List InitPort}

theorem savedFit_init (hsaved : ∀ q ∈ table, q.utopiaInit = true) :
    SavedFit (cosaEthInterfaceInitialize b tickInSeconds table).entries := by
  intro e he
  obtain ⟨i,hi,rfl⟩ := List.mem_mapIdx.mp he
  have hutopia := hsaved table[i] (List.getElem_mem hi)
  simp only [initEntry,hutopia,if_true]
  exact idFits_idStr _ _

theorem instanceNumber_init {i : Nat} {e : PortEntry}
    (he : (cosaEthInterfaceInitialize b tickInSeconds table).entries[i]? = some e) :
    e.instanceNumber = i+1 ∧ e.ifAlias = interfaceAlias (i+1) := by
  simp only [cosaEthInterfaceInitialize,List.getElem?_mapIdx,Option.map_eq_some_iff] at he
  obtain ⟨q,-,rfl⟩ := he
  exact ⟨rfl,rfl⟩

theorem cfg_init {i : Nat} {row : PortFull}
    (hrow : (cosaEthInterfaceInitialize b tickInSeconds table).rows[i]? = some row) :
    row.cfg.instanceNumber = i+1 ∧ row.cfg.ifAlias = interfaceAlias (i+1) := by
  simp only [cosaEthInterfaceInitialize,List.getElem?_mapIdx,Option.map_eq_some_iff] at hrow
  obtain ⟨q,-,rfl⟩ := hrow
  exact ⟨rfl,rfl⟩

theorem reappears_rebuild_iff {ports : List (PortEntry × PortFull)}
    (h : rebuild anscGetStringUlong b tickInSeconds table = some ports) {i : Nat}
    (hi : i < table.length) (pCfg : PortCfg) :
    Reappears ports i pCfg ↔
      pCfg.ifAlias = interfaceAlias (i+1) ∧ pCfg.instanceNumber = i+1 := by
  obtain ⟨hentries,hrows⟩ := rebuild_eq_some h
  have hlen : ports.length = table.length := by
    simpa [cosaEthInterfaceInitialize] using congrArg List.length hentries
  have hget := List.getElem?_eq_getElem (hlen ▸ hi)
  have hentry : (cosaEthInterfaceInitialize b tickInSeconds table).entries[i]? =
      some ports[i].1 := by rw [← hentries,List.getElem?_map,hget,Option.map_some]
  have hrow : (cosaEthInterfaceInitialize b tickInSeconds table).rows[i]? =
      some ports[i].2 := by rw [← hrows,List.getElem?_map,hget,Option.map_some]
  obtain ⟨hnumber,halias⟩ := instanceNumber_init hentry
  obtain ⟨hrowNumber,hrowAlias⟩ := cfg_init hrow
  unfold Reappears
  rw [hget]
  constructor
  · rintro ⟨e,row,hport,⟨ha,hn⟩,-⟩
    obtain ⟨rfl,rfl⟩ := Prod.mk.inj (Option.some_inj.mp hport)
    exact ⟨ha.symm.trans halias,hn.symm.trans hnumber⟩
  · rintro ⟨ha,hn⟩
    exact ⟨ports[i].1,ports[i].2,rfl,⟨halias.trans ha.symm,hnumber.trans hn.symm⟩,
      hrowAlias.trans ha.symm,hrowNumber.trans hn.symm⟩

end Restart

theorem length_entriesAfter (b : InterfaceBuild) (tickInSeconds : Nat) (table : List InitPort)
    (commits : List PortCommit) :
    (entriesAfter b tickInSeconds table commits).length = table.length := by
  simpa [entriesAfter,cosaEthInterfaceInitialize] using congrArg List.length
    (numbers_commits (b := b) (cosaEthInterfaceInitialize b tickInSeconds table).entries commits)

theorem number_entriesAfter {b : InterfaceBuild} {tickInSeconds : Nat} {table : List InitPort}
    {commits : List PortCommit} {i : Nat} {e : PortEntry}
    (he : (entriesAfter b tickInSeconds table commits)[i]? = some e) :
    e.instanceNumber = i+1 := by
  have hnumbers := congrArg (fun l => l[i]?)
    (numbers_commits (b := b) (cosaEthInterfaceInitialize b tickInSeconds table).entries commits)
  unfold entriesAfter at he
  simp only [List.getElem?_map,he,Option.map_some] at hnumbers
  obtain ⟨e',he',heq⟩ := Option.map_eq_some_iff.mp hnumbers.symm
  exact heq.symm.trans (instanceNumber_init he').1

theorem exists_rebuild_entriesAfter {b : InterfaceBuild} {tickInSeconds : Nat}
    {table : List InitPort} (hsaved : ∀ q ∈ table, q.utopiaInit = true)
    (commits : List PortCommit) (tickInSeconds' : Nat) (found : Nat → BootPort) :
    ∃ ports, rebuild anscGetStringUlong b tickInSeconds'
      (bootTable (entriesAfter b tickInSeconds table commits) found) = some ports := by
  rw [exists_rebuild_iff]
  intro q hq
  obtain ⟨i,hi,rfl⟩ := List.mem_mapIdx.mp hq
  have hinit : SavedFit (cosaEthInterfaceInitialize b tickInSeconds table).entries :=
    savedFit_init hsaved
  have hfit := hinit.commits (b := b) commits _ (List.getElem_mem hi)
  split
  · exact hfit
  · exact fun v hv => nomatch hv

/-- An Alias committed through `CosaDmlEthPortSetCfg` survives a restart, together with
its instance number, exactly when it is the Alias that the initialisation gives the
port anyway: the number that was read is lost on the way to the row. -/
theorem identity_restored_iff {b : InterfaceBuild} {tickInSeconds : Nat}
    {table : List InitPort} (hsaved : ∀ q ∈ table, q.utopiaInit = true)
    (before after : List PortCommit) (c : PortCommit)
    {i : Fin (entriesAfter b tickInSeconds table before).length}
    (hfound : getIF (entriesAfter b tickInSeconds table before) c.pCfg.instanceNumber = some i)
    (tickInSeconds' : Nat) (found : Nat → BootPort) :
    (∃ ports, rebuild anscGetStringUlong b tickInSeconds'
        (bootTable (entriesAfter b tickInSeconds table (before ++ c :: after)) found) =
          some ports ∧ Reappears ports i c.pCfg) ↔
      c.pCfg.ifAlias = interfaceAlias (i+1) := by
  have hnumber : c.pCfg.instanceNumber = i.val+1 :=
    (instanceNumber_of_getIF hfound).symm.trans
      (number_entriesAfter (List.getElem?_eq_getElem i.isLt))
  have hlen : (bootTable (entriesAfter b tickInSeconds table (before ++ c :: after))
      found).length = table.length := by
    rw [bootTable,List.length_mapIdx,length_entriesAfter]
  have hi := Nat.lt_of_lt_of_eq i.isLt
    ((length_entriesAfter b tickInSeconds table before).trans hlen.symm)
  constructor
  · rintro ⟨ports,hports,h⟩
    exact ((reappears_rebuild_iff hports hi c.pCfg).mp h).1
  · intro halias
    obtain ⟨ports,hports⟩ := exists_rebuild_entriesAfter hsaved (before ++ c :: after)
      tickInSeconds' found
    exact ⟨ports,hports,(reappears_rebuild_iff hports hi c.pCfg).mpr ⟨halias,hnumber⟩⟩

def linuxPort : InitPort := ⟨.linux true,false,none,allDone,true⟩

def foundAgain : Nat → BootPort := fun _ => ⟨.linux true,false,allDone,true⟩

def aliasCommit (ifAlias : Text) : PortCommit :=
  ⟨⟨1,Buf.store ifAlias,true,1000,3⟩,allSet⟩

theorem identity_restored_default :
    (∃ ports, rebuild stringUlong ⟨false,false⟩ 0 (bootTable (entriesAfter ⟨false,false⟩ 0
        [linuxPort,linuxPort] ([aliasCommit "lan".toList] ++
          aliasCommit "Interface1".toList :: [])) foundAgain) = some ports ∧
        Reappears ports 0 (aliasCommit "Interface1".toList).pCfg) :=
  (identity_restored_iff (i := ⟨0,by decide +kernel⟩) (by decide) [aliasCommit "lan".toList] []
    (aliasCommit "Interface1".toList) (by decide +kernel) 0 foundAgain).mpr (by decide +kernel)

/-- A committed Alias is Interface1 again after the restart. -/
theorem committed_alias_lost :
    ¬∃ ports, rebuild stringUlong ⟨false,false⟩ 0 (bootTable (entriesAfter ⟨false,false⟩ 0
        [linuxPort] [aliasCommit "lan".toList]) foundAgain) = some ports ∧
        Reappears ports 0 (aliasCommit "lan".toList).pCfg := by
  rintro ⟨ports,hports,h⟩
  have halias := ((reappears_rebuild_iff hports (by decide +kernel) _).mp h).1
  exact absurd halias (by decide +kernel)

section SavedText

/-- `sprintf_s` into the 522 bytes of `idStr`: what does not fit leaves the empty string. -/
def saveID (pAlias : Buf 512) (ulInstanceNumber : Nat) : Text :=
  let text := idStr pAlias ulInstanceNumber
  if text.length < 522 then text else []

theorem loadID_nil (pAlias : Buf 512) (n : Nat) :
    loadID anscGetStringUlong (some []) pAlias n = some (pAlias,n) := rfl

theorem loadID_alias {value : Text} (hvalue : value ≠ []) {pAlias : Buf 512} {n : Nat}
    {id : Buf 512 × Nat} (h : loadID anscGetStringUlong (some value) pAlias n = some id) :
    ',' ∉ id.1.text := by
  have hne : value.take 521 ≠ [] := by simpa using hvalue
  unfold loadID at h
  simp only [if_neg hne] at h
  split at h
  · obtain rfl := Option.some_inj.mp h
    intro hmem
    simpa using List.mem_takeWhile_imp hmem
  · exact absurd h (by simp)

/-- The text of an Alias that is read back, together with the number, whatever the entry
held before. -/
def ReadsBack (anscGetStringUlong : Text → Nat) (saved pString : Text)
    (ulInstanceNumber : Nat) : Prop :=
  ∀ pAlias n, (loadID anscGetStringUlong (some saved) pAlias n).map
    (fun id => (id.1.text,id.2)) = some (pString,ulInstanceNumber)

theorem readsBack_saveID_iff (hreads : ReadsDecimal anscGetStringUlong) (pAlias : Buf 512)
    {n : Nat} (hn : n < 2^64) :
    ReadsBack anscGetStringUlong (saveID pAlias n) pAlias.text n ↔
      ',' ∉ pAlias.text ∧ pAlias.text.length+1+(decimal n).length < 522 := by
  rw [← length_idStr]
  by_cases hfits : (idStr pAlias n).length < 522
  · have hsave : saveID pAlias n = idStr pAlias n := if_pos hfits
    rw [hsave]
    constructor
    · intro h
      obtain ⟨id,hid,htext⟩ := Option.map_eq_some_iff.mp (h (Buf.store []) 0)
      have htext : id.1.text = pAlias.text := congrArg Prod.fst htext
      exact ⟨htext ▸ loadID_alias (by simp [idStr]) hid,hfits⟩
    · rintro ⟨hcomma,-⟩ pAlias' n'
      rw [loadID_of_fits hreads hcomma hn hfits]
      rfl
  · have hsave : saveID pAlias n = [] := if_neg hfits
    rw [hsave]
    refine iff_of_false (fun h => ?_) fun h => hfits h.2
    have hnumber := h (Buf.store []) (n+1)
    rw [loadID_nil] at hnumber
    simp at hnumber

theorem setAlias_accepted {b : InterfaceBuild} {row row' : PortFull} {pString : Text}
    (h : interfaceSetParamValue b row (.ifAlias pString) = (true,row')) :
    row'.cfg.ifAlias.text = pString := by
  rw [interfaceSetParamValue] at h
  split at h
  · next hlt =>
    obtain ⟨-,rfl⟩ := Prod.ext_iff.mp h
    exact Buf.store_text_of_lt (by omega)
  · exact absurd (congrArg Prod.fst h) (by simp)

theorem accepted_id_round_trip_iff (hreads : ReadsDecimal anscGetStringUlong)
    {b : InterfaceBuild} {row row' : PortFull} {pString : Text}
    (h : interfaceSetParamValue b row (.ifAlias pString) = (true,row')) {n : Nat}
    (hn : n < 2^64) :
    ReadsBack anscGetStringUlong (saveID row'.cfg.ifAlias n) pString n ↔
      ',' ∉ pString ∧ pString.length+1+(decimal n).length < 522 := by
  have hback := readsBack_saveID_iff hreads row'.cfg.ifAlias hn
  rw [setAlias_accepted h] at hback
  exact hback

def plainRow : PortFull := ⟨⟨1,Buf.store [],true,1000,3⟩,false⟩

def aliasRow (ifAlias : Text) : PortFull := ⟨⟨1,Buf.store ifAlias,true,1000,3⟩,false⟩

theorem readsDecimal_stringUlong : ReadsDecimal stringUlong := fun n hn => by
  rw [stringUlong,atoi_decimal]
  omega

theorem lan_id_round_trip :
    ReadsBack stringUlong (saveID (aliasRow "lan".toList).cfg.ifAlias 1) "lan".toList 1 :=
  have haccepted : interfaceSetParamValue ⟨false,false⟩ plainRow (.ifAlias "lan".toList) =
      (true,aliasRow "lan".toList) := by decide +kernel
  (accepted_id_round_trip_iff readsDecimal_stringUlong haccepted (by decide)).mpr
    (by decide +kernel)

/-- An Alias with a comma is accepted, and cut at the comma when it is read back. -/
theorem comma_cuts_alias :
    interfaceSetParamValue ⟨false,false⟩ plainRow (.ifAlias "lan,1".toList) =
        (true,aliasRow "lan,1".toList) ∧
      ¬ReadsBack stringUlong (saveID (aliasRow "lan,1".toList).cfg.ifAlias 1) "lan,1".toList 1 := by
  refine ⟨by decide +kernel,fun h => ?_⟩
  exact absurd (h (Buf.store []) 0) (by decide +kernel)

end SavedText

end EthAgent
