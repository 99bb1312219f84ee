import EthAgent.Lib.Scanf
import EthAgent.Lib.SparseScan
import EthAgent.Lib.StaleLookup

/-!
The data model paths that are looked up by a name on the message bus:
`CosaUtilGetFullPathNameByKeyword`, `CosaUtilGetLowerLayers` and
`CosaUtilFindBridgePath`.
-/

set_option autoImplicit false

namespace EthAgent
open CString Scanf SparseScan StaleLookup

/-- What the bus answers. A call for a string that fails leaves the buffer alone. -/
structure Bus where
  getParamValueUlong : Text → Nat
  getInstanceNumberByIndex : Text → Nat → Nat
  getParamValueString : Text → Option Text
  getParamValueByPathName : Text → Option Text

def snprintf (size : Nat) (t : Text) : Text := t.take (size-1)

structure BusEntry where
  path : Text
  param : Text

/-- The loop over entries. `strcmp_s` looks at the buffer before the call that fills it. -/
def scanEntries (bus : Bus) (keyword : Text) : Text → List BusEntry → Option Text × Text
  | buf, [] => (none,buf)
  | buf, e :: es =>
    match bus.getParamValueString e.param with
    | none => scanEntries bus keyword buf es
    | some value =>
      if buf = keyword then (some e.path,value) else scanEntries bus keyword value es

/-- The entries of an object, without those whose instance number is zero. -/
def tableEntries (bus : Bus) (object entries : Text) (entry : Nat → BusEntry) : List BusEntry :=
  let instances :=
    (List.range (bus.getParamValueUlong entries)).map (bus.getInstanceNumberByIndex object)
  instances.filterMap fun ulEntryInstanceNum =>
    if ulEntryInstanceNum = 0 then none else some (entry ulEntryInstanceNum)

/-- The name of a table, as in `Device.Ethernet.Interface.`: its last two dots stand around
the object. -/
structure TableName where
  parent : Text
  object : Text
  plain : ∀ c ∈ object, c ≠ '.'

def TableName.text (t : TableName) : Text := t.parent ++ '.' :: (t.object ++ ['.'])

/-- Where `pString2` and `pString` stand after the loop over the name. -/
def dotLoop : Nat → Nat × Nat → Text → Nat × Nat
  | _, p, [] => p
  | i, p, c :: t => dotLoop (i+1) (if c = '.' then (p.2,i+1) else p) t

def entriesParam (name : Text) : Text :=
  let p := dotLoop 0 (0,0) name
  let ucTmp2 := snprintf 528 ((name.take (p.2-1)).drop p.1 ++ "NumberOfEntries".toList)
  snprintf 1152 (name.take (p.1-1) ++ '.' :: ucTmp2)

theorem dotLoop_append (i : Nat) (p : Nat × Nat) (s t : Text) :
    dotLoop i p (s ++ t) = dotLoop (i+s.length) (dotLoop i p s) t := by
  induction s generalizing i p with
  | nil => rfl
  | cons c s ih =>
    rw [List.cons_append,dotLoop,ih,dotLoop,List.length_cons,Nat.add_right_comm,Nat.add_assoc]

theorem dotLoop_plain {s : Text} (h : ∀ c ∈ s, c ≠ '.') (i : Nat) (p : Nat × Nat) :
    dotLoop i p s = p := by
  induction s generalizing i with
  | nil => rfl
  | cons c s ih =>
    obtain ⟨hc,hs⟩ := List.forall_mem_cons.mp h
    rw [dotLoop,if_neg hc,ih hs]

/-- The pointers stand in front of the object and behind the last dot. -/
theorem dotLoop_tableName (t : TableName) :
    dotLoop 0 (0,0) t.text = (t.parent.length+1,t.parent.length+1+t.object.length+1) := by
  rw [TableName.text,dotLoop_append,dotLoop,if_pos rfl,dotLoop_append,dotLoop_plain t.plain,
    dotLoop,if_pos rfl,Nat.zero_add]
  rfl

theorem entriesParam_tableName (t : TableName) (hshort : t.text.length ≤ 500) :
    entriesParam t.text = t.parent ++ '.' :: (t.object ++ "NumberOfEntries".toList) := by
  have hlength : t.text.length = t.parent.length+1+t.object.length+1 := by
    simp [TableName.text]
    omega
  have hobject : (t.text.take (t.parent.length+1+t.object.length)).drop (t.parent.length+1) =
      t.object := by
    have hsplit : t.text = (t.parent ++ ['.']) ++ t.object ++ ['.'] := by simp [TableName.text]
    rw [hsplit,List.take_left' (by simp; omega),List.drop_left' (by simp)]
  have hparent : t.text.take t.parent.length = t.parent := List.take_left
  have hsuffix : "NumberOfEntries".toList.length = 15 := rfl
  have htmp : (t.object ++ "NumberOfEntries".toList).take (528-1) =
      t.object ++ "NumberOfEntries".toList :=
    List.take_of_length_le (by rw [List.length_append,hsuffix]; omega)
  rw [entriesParam,dotLoop_tableName]
  simp only [Nat.add_sub_cancel,hobject,hparent,snprintf,htmp]
  exact List.take_of_length_le (by
    rw [List.length_append,List.length_cons,List.length_append,hsuffix]
    omega)

def fullPathEntry (table parameterName : Text) (n : Nat) : BusEntry :=
  let ucEntryFullPath := snprintf 640 (table ++ decimal n ++ ['.'])
  ⟨ucEntryFullPath,snprintf 1036 (ucEntryFullPath ++ parameterName)⟩

def fullPathEntries (bus : Bus) (parameterName : Text) (t : TableName) : List BusEntry :=
  tableEntries bus t.text (entriesParam t.text) (fullPathEntry t.text parameterName)

def fullPathLoop (bus : Bus) (parameterName keyword : Text) : Text → List TableName → Option Text
  | _, [] => none
  | buf, t :: ts =>
    match scanEntries bus keyword buf (fullPathEntries bus parameterName t) with
    | (some path,_) => some path
    | (none,buf) => fullPathLoop bus parameterName keyword buf ts

def getFullPathNameByKeyword (bus : Bus) (tables : List TableName) (parameterName keyword : Text) :
    Option Text :=
  if tables = [] ∨ keyword = [] ∨ parameterName = [] then none
  else fullPathLoop bus parameterName keyword [] tables

def bridgePath (n : Nat) : Text := snprintf 256 ("Device.Bridging.Bridge.".toList ++ decimal n)

def portPath (bridge j : Nat) : Text :=
  snprintf 263 (bridgePath bridge ++ ".Port.".toList ++ decimal j)

/-- The ports of a bridge. The path is that of the bridge or of the port, and `size` that of
`ucEntryParamName`. -/
def bridgePorts (bus : Bus) (path : Nat → Nat → Text) (size bridge : Nat) : List BusEntry :=
  let ulEntryPortNum :=
    bus.getParamValueUlong (snprintf 281 (bridgePath bridge ++ ".PortNumberOfEntries".toList))
  (List.range ulEntryPortNum).map fun j =>
    ⟨path bridge (j+1),
      snprintf size (bridgePath bridge ++ ".Port.".toList ++ decimal (j+1) ++ ".Name".toList)⟩

def bridges (bus : Bus) (path : Nat → Nat → Text) (size : Nat) : List (List BusEntry) :=
  ((List.range (bus.getParamValueUlong "Device.Bridging.BridgeNumberOfEntries".toList)).map
    (bus.getInstanceNumberByIndex "Device.Bridging.Bridge.".toList)).filterMap
      fun ulEntryInstanceNum =>
        if ulEntryInstanceNum = 0 then none
        else some (bridgePorts bus path size ulEntryInstanceNum)

/-- The loop over the bridges, which the `break` of the inner loop does not leave. -/
def scanBridges (bus : Bus) (keyword : Text) :
    Text → Option Text → List (List BusEntry) → Option Text × Text
  | buf, pMatched, [] => (pMatched,buf)
  | buf, pMatched, ports :: bs =>
    match scanEntries bus keyword buf ports with
    | (none,buf) => scanBridges bus keyword buf pMatched bs
    | (some path,buf) => scanBridges bus keyword buf (some path) bs

def findBridgePath (bus : Bus) (bridgeName : Text) : Option Text :=
  (scanBridges bus bridgeName [] none (bridges bus (fun bridge _ => bridgePath bridge) 274)).1

/-- The tables that `CosaUtilGetLowerLayers` knows. -/
inductive LowerTable where
  | flat (object entries pathEnd nameEnd : Text)
  | wifiSsid
  | bridge
  deriving DecidableEq

def LowerTable.name : LowerTable → Text
  | .flat object _ _ _ => object
  | .wifiSsid => "Device.WiFi.SSID.".toList
  | .bridge => "Device.Bridging.Bridge.".toList

def LowerTable.plain (object entries : String) : LowerTable :=
  .flat object.toList entries.toList [] ".Name".toList

/-- In the order of the comparisons; `moca` without `NO_MOCA_FEATURE_SUPPORT`. -/
def lowerTables (moca : Bool) : List LowerTable :=
  let mocaTable := LowerTable.plain "Device.MoCA.Interface." "Device.MoCA.InterfaceNumberOfEntries"
  [[LowerTable.plain "Device.Ethernet.Interface." "Device.Ethernet.InterfaceNumberOfEntries",
    LowerTable.plain "Device.IP.Interface." "Device.IP.InterfaceNumberOfEntries",
    LowerTable.flat "Device.WiFi.Radio.".toList "Device.WiFi.RadioNumberOfEntries".toList ['.']
      "Name".toList],
    if moca then [mocaTable] else [],
    [LowerTable.plain "Device.X_CISCO_COM_GRE.Interface."
      "Device.X_CISCO_COM_GRE.InterfaceNumberOfEntries",
    LowerTable.plain "Device.Ethernet.Link." "Device.Ethernet.LinkNumberOfEntries",
    LowerTable.wifiSsid,LowerTable.bridge]].flatten

def lowerEntry (object pathEnd nameEnd : Text) (n : Nat) : BusEntry :=
  let ucEntryFullPath := snprintf 256 (object ++ decimal n ++ pathEnd)
  ⟨ucEntryFullPath,snprintf 271 (ucEntryFullPath ++ nameEnd)⟩

def ssidPath (n : Nat) : Text := snprintf 256 ("Device.WiFi.SSID.".toList ++ decimal n)

def ssidParam (n : Nat) : Text :=
  snprintf 271 ("Device.WiFi.SSID.".toList ++ decimal n ++ ".Name".toList)

/-- `%lu` of a number that fits. -/
def readUlong (t : Text) : Nat := (scanDecimal t).elim 0 fun r => r.1.toNat

/-- How the scan of a table ends. `stopped` is the `break` that leaves the loop over the
tables as well. -/
inductive TableScan where
  | matched (path : Text)
  | unmatched (buf : Text)
  | stopped

def TableScan.path : TableScan → Option Text
  | .matched path => some path
  | .unmatched _ => none
  | .stopped => none

def TableScan.of : Option Text × Text → TableScan
  | (some path,_) => .matched path
  | (none,buf) => .unmatched buf

/-- The loop over the SSIDs, which goes on at the next instance where one cannot be read:
`none` without fuel. -/
def ssidLoop (bus : Bus) (keyword : Text) (ulNumOfEntries : Nat) :
    Nat → Nat → Nat → Text → Option TableScan
  | 0, _, _, _ => none
  | fuel+1, ulEntryInstanceNum, i, buf =>
    if i < ulNumOfEntries then
      match bus.getParamValueByPathName (ssidParam ulEntryInstanceNum) with
      | none => ssidLoop bus keyword ulNumOfEntries fuel (ulEntryInstanceNum+1) i []
      | some value =>
        if value = keyword then some (.matched (ssidPath ulEntryInstanceNum))
        else ssidLoop bus keyword ulNumOfEntries fuel (ulEntryInstanceNum+1) (i+1) value
    else some (.unmatched buf)

def ssidScan (bus : Bus) (keyword : Text) (fuel : Nat) : Option TableScan :=
  match bus.getParamValueByPathName "Device.WiFi.SSIDNumberOfEntries".toList with
  | none => some .stopped
  | some value => ssidLoop bus keyword (readUlong value) fuel 1 0 value

def lowerEntries (bus : Bus) (object entries pathEnd nameEnd : Text) : List BusEntry :=
  tableEntries bus object entries (lowerEntry object pathEnd nameEnd)

def scanTable (bus : Bus) (keyword : Text) (fuel : Nat) (buf : Text) :
    LowerTable → Option TableScan
  | .flat object entries pathEnd nameEnd =>
    some (.of (scanEntries bus keyword buf (lowerEntries bus object entries pathEnd nameEnd)))
  | .wifiSsid => ssidScan bus keyword fuel
  | .bridge => some (.of (scanBridges bus keyword buf none (bridges bus portPath 271)))

def lowerLayersLoop (bus : Bus) (moca : Bool) (keyword : Text) (fuel : Nat) :
    Text → List Text → Option (Option Text)
  | _, [] => some none
  | buf, name :: names =>
    match (lowerTables moca).find? fun table => table.name = name with
    | none => lowerLayersLoop bus moca keyword fuel buf names
    | some table =>
      match scanTable bus keyword fuel buf table with
      | none => none
      | some .stopped => some none
      | some (.matched path) => some (some path)
      | some (.unmatched buf) => lowerLayersLoop bus moca keyword fuel buf names

/-- `CosaUtilGetLowerLayers`, of the names that `pTableName` lists. -/
def getLowerLayers (bus : Bus) (moca : Bool) (names : List Text) (keyword : Text) (fuel : Nat) :
    Option (Option Text) :=
  if names = [] ∨ keyword = [] then some none
  else lowerLayersLoop bus moca keyword fuel [] names

/-- The entries whose name can be read, as pairs of path and name. -/
def readableRows (bus : Bus) (es : List BusEntry) : List (Text × Text) :=
  es.filterMap fun e => (bus.getParamValueString e.param).map fun name => (e.path,name)

variable {bus : Bus} {keyword : Text}

theorem scanEntries_eq (buf : Text) (es : List BusEntry) :
    scanEntries bus keyword buf es = scan keyword buf (readableRows bus es) := by
  induction es generalizing buf with
  | nil => rfl
  | cons e es ih =>
    rw [scanEntries,readableRows]
    cases hname : bus.getParamValueString e.param with
    | none =>
      rw [List.filterMap_cons_none (by rw [hname]; rfl)]
      exact ih buf
    | some name =>
      rw [List.filterMap_cons_some (by rw [hname]; rfl),scan]
      exact if_congr Iff.rfl rfl (ih name)

theorem readableRows_append (es es' : List BusEntry) :
    readableRows bus (es ++ es') = readableRows bus es ++ readableRows bus es' :=
  List.filterMap_append

theorem fullPathLoop_eq (parameterName buf : Text) (tables : List TableName) :
    fullPathLoop bus parameterName keyword buf tables =
      (scan keyword buf
        (readableRows bus (tables.flatMap (fullPathEntries bus parameterName)))).1 := by
  induction tables generalizing buf with
  | nil => rfl
  | cons t ts ih =>
    rw [fullPathLoop,scanEntries_eq,List.flatMap_cons,readableRows_append]
    cases hscan : scan keyword buf (readableRows bus (fullPathEntries bus parameterName t)) with
    | mk path buf' =>
      cases path with
      | none =>
        rw [scan_append_of_none (by rw [hscan]),hscan]
        exact ih buf'
      | some path =>
        rw [scan_append_of_some (by rw [hscan]),hscan]

theorem scanBridges_eq (buf : Text) (pMatched : Option Text) (bs : List (List BusEntry)) :
    scanBridges bus keyword buf pMatched bs =
      sweep keyword buf pMatched (bs.map (readableRows bus)) := by
  induction bs generalizing buf pMatched with
  | nil => rfl
  | cons ports bs ih =>
    rw [scanBridges,scanEntries_eq,List.map_cons,sweep]
    cases hscan : scan keyword buf (readableRows bus ports) with
    | mk path buf' =>
      cases path with
      | none => exact ih buf' pMatched
      | some path => exact ih buf' (some path)

def fullPathRows (bus : Bus) (tables : List TableName) (parameterName : Text) :
    List (Text × Text) :=
  readableRows bus (tables.flatMap (fullPathEntries bus parameterName))

def FullPathFindsFirst (bus : Bus) (tables : List TableName) (parameterName keyword : Text) :
    Prop :=
  if tables = [] ∨ keyword = [] ∨ parameterName = [] then
    ∀ r ∈ fullPathRows bus tables parameterName, r.2 ≠ keyword
  else NextHasPath keyword (fullPathRows bus tables parameterName)

theorem fullPath_iff (tables : List TableName) (parameterName keyword : Text) :
    getFullPathNameByKeyword bus tables parameterName keyword =
        first keyword (fullPathRows bus tables parameterName) ↔
      FullPathFindsFirst bus tables parameterName keyword := by
  unfold getFullPathNameByKeyword FullPathFindsFirst
  split
  · rw [eq_comm,first_eq_none_iff]
  · next hgiven =>
    have hkeyword : [] ≠ keyword := fun h => hgiven (.inr (.inl h.symm))
    rw [fullPathLoop_eq]
    exact scan_eq_first_iff hkeyword

/-- Where no path is listed twice, the lookup is right for the names that no row has. -/
theorem fullPath_iff_of_nodup {tables : List TableName} {parameterName : Text}
    (hpaths : ((fullPathRows bus tables parameterName).map Prod.fst).Nodup) (keyword : Text) :
    getFullPathNameByKeyword bus tables parameterName keyword =
        first keyword (fullPathRows bus tables parameterName) ↔
      ∀ r ∈ fullPathRows bus tables parameterName, r.2 ≠ keyword := by
  rw [fullPath_iff,FullPathFindsFirst]
  split
  · rfl
  · exact nextHasPath_iff_of_nodup hpaths

def bridgeRows (bus : Bus) (path : Nat → Nat → Text) (size : Nat) : List (List (Text × Text)) :=
  (bridges bus path size).map (readableRows bus)

def ssidEntries (bus : Bus) : Nat :=
  (bus.getParamValueByPathName "Device.WiFi.SSIDNumberOfEntries".toList).elim 0 readUlong

def ssidName (bus : Bus) (k : Nat) : Option Text := bus.getParamValueByPathName (ssidParam (k+1))

def ssidsBefore (bus : Bus) (k : Nat) : Nat := Nat.count (fun j => (ssidName bus j).isSome) k

/-- The rows are the instances that can be read, up to the number of entries. -/
def SsidRow (bus : Bus) (entries k : Nat) (name : Text) : Prop :=
  ssidName bus k = some name ∧ ssidsBefore bus k < entries

def FirstSsid (bus : Bus) (entries : Nat) (keyword : Text) (r : Option Text) : Prop :=
  (∃ k, SsidRow bus entries k keyword ∧ (∀ j < k, ¬SsidRow bus entries j keyword) ∧
    r = some (ssidPath (k+1))) ∨
  (∀ k, ¬SsidRow bus entries k keyword) ∧ r = none

variable {entries : Nat}

theorem wantedAt_iff (bus : Bus) (keyword : Text) (entries k : Nat) :
    WantedAt (ssidName bus) (fun value => value = keyword) entries k ↔
      SsidRow bus entries k keyword := by
  simp [WantedAt,SsidRow,answersBefore,ssidsBefore]

theorem bounded_iff (bus : Bus) (keyword : Text) (entries : Nat) :
    Bounded (ssidName bus) (fun value => value = keyword) entries ↔
      (∃ k, SsidRow bus entries k keyword) ∨ ∃ k, entries ≤ ssidsBefore bus k := by
  simp only [Bounded,wantedAt_iff,answersBefore,ssidsBefore]

theorem ssidLoop_path (bus : Bus) (keyword : Text) (entries fuel k i : Nat) (buf : Text) :
    (ssidLoop bus keyword entries fuel (k+1) i buf).map TableScan.path =
      (scanPlaces (ssidName bus) (fun value => value = keyword) entries fuel k i).map
        (Option.map fun k => ssidPath (k+1)) := by
  induction fuel generalizing k i buf with
  | zero => rfl
  | succ fuel ih =>
    rw [ssidLoop,scanPlaces]
    split
    · have hname : bus.getParamValueByPathName (ssidParam (k+1)) = ssidName bus k := rfl
      rw [hname]
      cases ssidName bus k with
      | none => exact ih (k+1) i []
      | some value =>
        by_cases hvalue : value = keyword
        · simp [hvalue,TableScan.path]
        · simpa [hvalue] using ih (k+1) (i+1) value
    · rfl

theorem firstSsid_of_isFirst {r : Option Nat}
    (h : IsFirst (ssidName bus) (fun value => value = keyword) entries r) :
    FirstSsid bus entries keyword (r.map fun k => ssidPath (k+1)) := by
  cases r with
  | none => exact .inr ⟨fun k hrow => h k ((wantedAt_iff bus keyword entries k).mpr hrow),rfl⟩
  | some k =>
    exact .inl ⟨k,(wantedAt_iff bus keyword entries k).mp h.1,
      fun j hj hrow => h.2 j hj ((wantedAt_iff bus keyword entries j).mpr hrow),rfl⟩

theorem ssidScan_iff :
    (∃ fuel s, ssidScan bus keyword fuel = some s ∧
        FirstSsid bus (ssidEntries bus) keyword s.path) ↔
      (∃ k, SsidRow bus (ssidEntries bus) k keyword) ∨
        ∃ k, ssidEntries bus ≤ ssidsBefore bus k := by
  unfold ssidScan
  cases hcount : bus.getParamValueByPathName "Device.WiFi.SSIDNumberOfEntries".toList with
  | none =>
    have hentries : ssidEntries bus = 0 := by rw [ssidEntries,hcount]; rfl
    rw [hentries]
    have hnone : ∀ k, ¬SsidRow bus 0 k keyword := fun k hrow => absurd hrow.2 (Nat.not_lt_zero _)
    exact ⟨fun _ => .inr ⟨0,Nat.zero_le _⟩,fun _ => ⟨0,.stopped,rfl,.inr ⟨hnone,rfl⟩⟩⟩
  | some value =>
    have hentries : ssidEntries bus = readUlong value := by rw [ssidEntries,hcount]; rfl
    dsimp only
    have hfollows := fun fuel => ssidLoop_path bus keyword (ssidEntries bus) fuel 0 0 value
    rw [← hentries,← bounded_iff,← ends_iff_of_follows hfollows]
    constructor
    · rintro ⟨fuel,s,hs,-⟩
      exact ⟨fuel,s,hs⟩
    · rintro ⟨fuel,s,hs⟩
      obtain ⟨r,hfirst,heq⟩ := first_of_follows hfollows hs
      exact ⟨fuel,s,hs,heq ▸ firstSsid_of_isFirst hfirst⟩

def FirstIn (bus : Bus) (keyword : Text) : LowerTable → Option Text → Prop
  | .flat object entries pathEnd nameEnd, r =>
    r = first keyword (readableRows bus (lowerEntries bus object entries pathEnd nameEnd))
  | .wifiSsid, r => FirstSsid bus (ssidEntries bus) keyword r
  | .bridge, r => r = first keyword (bridgeRows bus portPath 271).flatten

/-- The scan ends, and gives the path of the first row with the name. -/
def TableFindsFirst (bus : Bus) (keyword buf : Text) (table : LowerTable) : Prop :=
  ∃ fuel s, scanTable bus keyword fuel buf table = some s ∧ FirstIn bus keyword table s.path

def ScanCondition (bus : Bus) (keyword buf : Text) : LowerTable → Prop
  | .flat object entries pathEnd nameEnd =>
    FindsFirst keyword buf (readableRows bus (lowerEntries bus object entries pathEnd nameEnd))
  | .wifiSsid => (∃ k, SsidRow bus (ssidEntries bus) k keyword) ∨
      ∃ k, ssidEntries bus ≤ ssidsBefore bus k
  | .bridge => SweepsFirst keyword buf (bridgeRows bus portPath 271)

/-- No two bridges have a path in common, which only the scan of the bridges is about. -/
def BridgesApart (bus : Bus) : LowerTable → Prop
  | .bridge => PathsApart (bridgeRows bus portPath 271)
  | _ => True

theorem TableScan.path_of (r : Option Text × Text) : (TableScan.of r).path = r.1 := by
  obtain ⟨path,buf⟩ := r
  cases path <;> rfl

theorem exists_scan_iff {s : TableScan} {P : TableScan → Prop} :
    (∃ (_ : Nat) (s' : TableScan), some s = some s' ∧ P s') ↔ P s := by
  simp

theorem bridgeFindsFirst_iff (buf : Text) :
    TableFindsFirst bus keyword buf .bridge ↔
      (sweep keyword buf none (bridgeRows bus portPath 271)).1 =
        first keyword (bridgeRows bus portPath 271).flatten := by
  rw [bridgeRows,← scanBridges_eq,← TableScan.path_of]
  exact exists_scan_iff

theorem tableFindsFirst_of_scanCondition {buf : Text} {table : LowerTable}
    (h : ScanCondition bus keyword buf table) : TableFindsFirst bus keyword buf table := by
  cases table with
  | flat object entries pathEnd nameEnd =>
    rw [ScanCondition,← findsFirst_iff,← scanEntries_eq,← TableScan.path_of] at h
    exact exists_scan_iff.mpr h
  | wifiSsid => exact ssidScan_iff.mpr h
  | bridge => exact (bridgeFindsFirst_iff buf).mpr (sweep_of_sweepsFirst h)

theorem scanTable_iff {table : LowerTable} (hapart : BridgesApart bus table) (buf : Text) :
    TableFindsFirst bus keyword buf table ↔ ScanCondition bus keyword buf table := by
  cases table with
  | flat object entries pathEnd nameEnd =>
    rw [ScanCondition,← findsFirst_iff,← scanEntries_eq,← TableScan.path_of]
    exact exists_scan_iff
  | wifiSsid => exact ssidScan_iff
  | bridge => rw [bridgeFindsFirst_iff,sweep_eq_first_iff hapart,ScanCondition]

theorem find_lowerTable : ∀ moca, ∀ table ∈ lowerTables moca,
    (lowerTables moca).find? (fun table' => table'.name = table.name) = some table := by
  decide +kernel

/-- A request that lists one table gives what its scan finds. -/
theorem getLowerLayers_single {moca : Bool} {table : LowerTable}
    (htable : table ∈ lowerTables moca) (hkeyword : keyword ≠ []) (fuel : Nat) :
    getLowerLayers bus moca [table.name] keyword fuel =
      (scanTable bus keyword fuel [] table).map TableScan.path := by
  have hgiven : ¬([table.name] = [] ∨ keyword = []) := by simp [hkeyword]
  rw [getLowerLayers,if_neg hgiven,lowerLayersLoop,find_lowerTable moca table htable]
  dsimp only
  cases scanTable bus keyword fuel [] table with
  | none => rfl
  | some s => cases s <;> rfl

/-- The rows of `CosaUtilFindBridgePath`: the ports, with the path of their bridge. -/
def bridgePathRows (bus : Bus) : List (List (Text × Text)) :=
  bridgeRows bus (fun bridge _ => bridgePath bridge) 274

theorem findBridgePath_eq (bridgeName : Text) :
    findBridgePath bus bridgeName = (sweep bridgeName [] none (bridgePathRows bus)).1 := by
  rw [findBridgePath,scanBridges_eq]
  rfl

/-- A lookup is right when the row that it stops at, behind the one with the name, has the
same path, and for bridges none behind that stops it once more. Only a bridge that is listed
twice may be found in spite of that. -/
theorem path_lookup_iff (bus : Bus) :
    (∀ tables parameterName keyword,
      getFullPathNameByKeyword bus tables parameterName keyword =
          first keyword (fullPathRows bus tables parameterName) ↔
        FullPathFindsFirst bus tables parameterName keyword) ∧
    (∀ keyword buf table,
      (ScanCondition bus keyword buf table → TableFindsFirst bus keyword buf table) ∧
      (BridgesApart bus table →
        (TableFindsFirst bus keyword buf table ↔ ScanCondition bus keyword buf table))) ∧
    ∀ bridgeName,
      (SweepsFirst bridgeName [] (bridgePathRows bus) →
        findBridgePath bus bridgeName = first bridgeName (bridgePathRows bus).flatten) ∧
      (PathsApart (bridgePathRows bus) →
        (findBridgePath bus bridgeName = first bridgeName (bridgePathRows bus).flatten ↔
          SweepsFirst bridgeName [] (bridgePathRows bus))) := by
  refine ⟨fullPath_iff,fun keyword buf table => ?_,fun bridgeName => ?_⟩
  · exact ⟨tableFindsFirst_of_scanCondition,fun hapart => scanTable_iff hapart buf⟩
  · rw [findBridgePath_eq]
    exact ⟨sweep_of_sweepsFirst,sweep_eq_first_iff⟩

def twoBridges : Bus where
  getParamValueUlong param :=
    if param = "Device.Bridging.BridgeNumberOfEntries".toList then 2
    else if param = "Device.Bridging.Bridge.1.PortNumberOfEntries".toList then 2
    else if param = "Device.Bridging.Bridge.2.PortNumberOfEntries".toList then 1
    else 0
  getInstanceNumberByIndex _ i := i+1
  getParamValueString param :=
    if param = "Device.Bridging.Bridge.1.Port.1.Name".toList then some "br0".toList
    else if param = "Device.Bridging.Bridge.1.Port.2.Name".toList then some "eth0".toList
    else if param = "Device.Bridging.Bridge.2.Port.1.Name".toList then some "br1".toList
    else none
  getParamValueByPathName _ := none

theorem bridgePathRows_twoBridges : bridgePathRows twoBridges =
    [[("Device.Bridging.Bridge.1".toList,"br0".toList),
      ("Device.Bridging.Bridge.1".toList,"eth0".toList)],
    [("Device.Bridging.Bridge.2".toList,"br1".toList)]] := by decide +kernel

theorem pathsApart_twoBridges : PathsApart (bridgePathRows twoBridges) := by
  rw [bridgePathRows_twoBridges]
  unfold PathsApart
  decide

/-- The bridge of `br0` is found, that of `br1` not. -/
theorem bridge_of_two_found :
    SweepsFirst "br0".toList [] (bridgePathRows twoBridges) ∧
      ¬SweepsFirst "br1".toList [] (bridgePathRows twoBridges) := by
  have hlookup := fun name => ((path_lookup_iff twoBridges).2.2 name).2 pathsApart_twoBridges
  rw [← hlookup,← hlookup]
  decide +kernel

def ethernetInterface : TableName :=
  ⟨"Device.Ethernet".toList,"Interface".toList,by simp⟩

def twoInterfaces : Bus where
  getParamValueUlong param :=
    if param = "Device.Ethernet.InterfaceNumberOfEntries".toList then 2 else 0
  getInstanceNumberByIndex _ i := i+1
  getParamValueString param :=
    if param = "Device.Ethernet.Interface.1.Name".toList then some "eth0".toList
    else if param = "Device.Ethernet.Interface.2.Name".toList then some "eth1".toList
    else none
  getParamValueByPathName _ := none

theorem next_interface_found :
    getFullPathNameByKeyword twoInterfaces [ethernetInterface] "Name".toList "eth0".toList ≠
      first "eth0".toList (fullPathRows twoInterfaces [ethernetInterface] "Name".toList) := by
  decide +kernel

end EthAgent
