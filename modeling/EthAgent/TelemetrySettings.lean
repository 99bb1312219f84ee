import EthAgent.Lib.Scanf
import EthAgent.Lib.Watched
import EthAgent.LoggerThread

/-!
The settings of the telemetry log on their way from the data model to the thread that
logs: syscfg and `LogStatus`, the file that `CosaEthTelemetryxOpsLogSettingsSync` writes,
and the two globals that `EthTelemetryxOpsLogSettingsEventThread` reads from it when it is
told that the file was modified.
-/

set_option autoImplicit false

namespace EthAgent
open CString Runs Scanf Watched

variable {w : Nat}

/-- One request to `EthLogging_SetParamBoolValue`, and whether `syscfg_set_commit` takes
the value. -/
structure EnableRequest where
  paramName : Text
  bValue : Bool
  committed : Bool

def ethLoggingSetParamBoolValue (logEnable : Bool) (r : EnableRequest) : Bool × Bool :=
  if r.paramName = "xOpsDMEthLogEnabled".toList then
    (true,if r.committed then r.bValue else logEnable)
  else (false,logEnable)

def enabledText (b : Bool) : Text := if b then "true".toList else "false".toList

/-- What `syscfg_get` leaves in a zeroed buffer, if that is not the empty text. -/
def syscfgValue (size : Nat) (stored : Option Text) : Option Text :=
  (stored.map (List.take (size-1))).filter (· ≠ [])

def cosaDmlEthGetLogStatus (w : Nat) (ethLogPeriod ethLogEnabled : Option Text) :
    Bool × BitVec w :=
  ((syscfgValue 16 ethLogEnabled).elim false fun buf => buf = "true".toList,
    (syscfgValue 16 ethLogPeriod).elim 3600 fun buf => BitVec.ofInt w (atoi buf))

/-- The text that `CosaEthTelemetryxOpsLogSettingsSync` writes. -/
def settingsText (ethLogPeriod ethLogEnabled : Option Text) : Text :=
  (syscfgValue 32 ethLogPeriod).getD "3600".toList ++
    ',' :: ((syscfgValue 32 ethLogEnabled).getD "false".toList ++ ['\n'])

def readUpdatedLogInterval (c : IntStore) (text : Text) (gEthLogInterval : Int)
    (gEthLogEnable : Text) : Int × Text :=
  match scanDecimal text with
  | none => (gEthLogInterval,gEthLogEnable)
  | some (n,',' :: rest) =>
    match scanWord 6 rest with
    | none => (c.store n,gEthLogEnable)
    | some (word,_) => (c.store n,word)
  | some (n,_) => (c.store n,gEthLogEnable)

/-- syscfg, `LogStatus`, the file, a Sync that has opened the file and not yet closed it,
and the event thread with its globals. -/
structure EthTelemetry (w : Nat) where
  ethLogPeriod : Option Text
  ethLogEnabled : Option Text
  logEnable : Bool
  logPeriod : BitVec w
  ethLogFile : Option Text
  syncing : Bool
  gEthLogInterval : Int
  gEthLogEnable : Text
  thread : Stage
  modified : Bool

/-- `opened` says whether the file can be opened for writing. -/
inductive TelemetryStep (w : Nat) where
  | setEnabled (r : EnableRequest) (opened : Bool)
  | setPeriod (r : PeriodRequest w) (opened : Bool)
  | finishSync
  | firstRead
  | addWatch
  | takeEvents
  | readSettings (more : Bool)
  | restart (opened : Bool)

/-- After `CosaEthernetInitialize`, which has created the event thread. -/
def started (w : Nat) (ethLogPeriod ethLogEnabled ethLogFile : Option Text) (opened : Bool) :
    EthTelemetry w where
  ethLogPeriod := ethLogPeriod
  ethLogEnabled := ethLogEnabled
  logEnable := (cosaDmlEthGetLogStatus w ethLogPeriod ethLogEnabled).1
  logPeriod := (cosaDmlEthGetLogStatus w ethLogPeriod ethLogEnabled).2
  ethLogFile := if opened then some (settingsText ethLogPeriod ethLogEnabled) else ethLogFile
  syncing := false
  gEthLogInterval := 0
  gEthLogEnable := []
  thread := .waiting
  modified := false

/-- The start of a Sync, which leaves the file empty. -/
def EthTelemetry.openSync (s : EthTelemetry w) (opened : Bool) : EthTelemetry w :=
  if opened then
    { s with ethLogFile := some [],syncing := true,modified := s.modified || s.thread.watches }
  else s

def EthTelemetry.readFile (c : IntStore) (s : EthTelemetry w) : EthTelemetry w :=
  match s.ethLogFile with
  | none => s
  | some text =>
    let globals := readUpdatedLogInterval c text s.gEthLogInterval s.gEthLogEnable
    { s with gEthLogInterval := globals.1,gEthLogEnable := globals.2 }

/-- The requests come one at a time, and each ends its Sync before the next. -/
def telemetryStep (c : IntStore) (s : EthTelemetry w) : TelemetryStep w → EthTelemetry w
  | .setEnabled r opened =>
    if s.syncing = false ∧ r.paramName = "xOpsDMEthLogEnabled".toList ∧ r.committed = true then
      EthTelemetry.openSync { s with
        ethLogEnabled := some (enabledText r.bValue)
        logEnable := (ethLoggingSetParamBoolValue s.logEnable r).2 } opened
    else s
  | .setPeriod r opened =>
    if s.syncing = false ∧ r.paramName = "xOpsDMEthLogPeriod".toList ∧ r.committed = true then
      EthTelemetry.openSync { s with
        ethLogPeriod := some (decimal r.uValue.toNat)
        logPeriod := (ethLoggingSetParamUlongValue s.logPeriod r).2 } opened
    else s
  | .finishSync =>
    if s.syncing then
      { s with
        ethLogFile := some (settingsText s.ethLogPeriod s.ethLogEnabled)
        syncing := false
        modified := s.modified || s.thread.watches }
    else s
  | .firstRead =>
    if s.thread = .waiting ∧ s.ethLogFile.isSome = true then
      { s.readFile c with thread := .opened }
    else s
  | .addWatch => if s.thread = .opened then { s with thread := .asleep } else s
  | .takeEvents =>
    if s.thread = .asleep ∧ s.modified = true then
      { s with thread := .reading,modified := false }
    else s
  | .readSettings more =>
    if s.thread = .reading then
      { s.readFile c with thread := if more then .reading else .asleep }
    else s
  | .restart opened => started w s.ethLogPeriod s.ethLogEnabled s.ethLogFile opened

/-- The globals hold the settings of the data model. -/
def Follows (s : EthTelemetry w) : Prop :=
  s.gEthLogInterval = s.logPeriod.toNat ∧
    (s.gEthLogEnable = "true".toList ↔ s.logEnable = true)

instance (s : EthTelemetry w) : Decidable (Follows s) :=
  inferInstanceAs (Decidable (_ ∧ (_ ↔ _)))

/-- No Sync is under way, and the thread sleeps with nothing to wake it up. -/
def Quiet (s : EthTelemetry w) : Prop :=
  s.syncing = false ∧ s.thread = .asleep ∧ s.modified = false

instance (s : EthTelemetry w) : Decidable (Quiet s) := inferInstanceAs (Decidable (_ ∧ _ ∧ _))

/-- What the thread has read before it adds its watch is as the settings are, or a Sync is
under way. -/
def CaughtUpAt (s : EthTelemetry w) : TelemetryStep w → Prop
  | .addWatch => s.thread = .opened → s.syncing = false → Follows s
  | _ => True

instance (s : EthTelemetry w) : DecidablePred (CaughtUpAt s)
  | .addWatch => inferInstanceAs (Decidable (_ → _ → _))
  | .setEnabled _ _ => .isTrue trivial
  | .setPeriod _ _ => .isTrue trivial
  | .finishSync => .isTrue trivial
  | .firstRead => .isTrue trivial
  | .takeEvents => .isTrue trivial
  | .readSettings _ => .isTrue trivial
  | .restart _ => .isTrue trivial

/-- The file can be opened, and an `int` holds the period. -/
def TelemetryStep.Plain : TelemetryStep w → Prop
  | .setEnabled _ opened => opened = true
  | .setPeriod r opened => opened = true ∧ r.uValue.toNat < 2^31
  | .restart opened => opened = true
  | _ => True

/-- syscfg holds the settings as the data model stores them, or nothing. -/
def SettingsStored (ethLogPeriod ethLogEnabled : Option Text) : Prop :=
  (∀ t ∈ ethLogPeriod, t = [] ∨ ∃ n < 2^31, t = decimal n) ∧
    ∀ t ∈ ethLogEnabled, t = [] ∨ ∃ b, t = enabledText b

theorem syscfgValue_eq {size : Nat} {stored : Option Text} (h : ∀ t ∈ stored, t.length < size) :
    syscfgValue size stored = stored.filter (· ≠ []) := by
  cases stored with
  | none => rfl
  | some t =>
    rw [syscfgValue,Option.map_some,List.take_of_length_le (Nat.le_sub_one_of_lt (h t rfl))]

theorem length_enabledText (b : Bool) : (enabledText b).length < 16 := by
  cases b <;> decide

variable {ethLogPeriod ethLogEnabled : Option Text}

/-- The period that the file gets is the one that the data model reads at its start. -/
theorem SettingsStored.period (h : SettingsStored ethLogPeriod ethLogEnabled) (w : Nat) :
    ∃ n < 2^31, (syscfgValue 32 ethLogPeriod).getD "3600".toList = decimal n ∧
      (cosaDmlEthGetLogStatus w ethLogPeriod ethLogEnabled).2 = BitVec.ofNat w n := by
  have hlength : ∀ t ∈ ethLogPeriod, t.length < 16 := by
    intro t ht
    rcases h.1 t ht with rfl | ⟨n,hn,rfl⟩
    · decide
    · have hdigits : (decimal n).length ≤ 10 := length_decimal_le (by decide) (by omega)
      omega
  rw [cosaDmlEthGetLogStatus,syscfgValue_eq hlength,
    syscfgValue_eq fun t ht => (hlength t ht).trans (by decide)]
  cases ethLogPeriod with
  | none => exact ⟨3600,by decide,by decide,rfl⟩
  | some t =>
    rcases h.1 t rfl with rfl | ⟨n,hn,rfl⟩
    · exact ⟨3600,by decide,by decide,rfl⟩
    · have hne : decimal n ≠ [] := Nat.toDigits_ne_nil
      refine ⟨n,hn,by simp [Option.filter,hne],?_⟩
      simp [Option.filter,hne,atoi_decimal]

theorem SettingsStored.enabled (h : SettingsStored ethLogPeriod ethLogEnabled) (w : Nat) :
    (syscfgValue 32 ethLogEnabled).getD "false".toList =
      enabledText (cosaDmlEthGetLogStatus w ethLogPeriod ethLogEnabled).1 := by
  have hlength : ∀ t ∈ ethLogEnabled, t.length < 16 := by
    intro t ht
    rcases h.2 t ht with rfl | ⟨b,rfl⟩
    · decide
    · exact length_enabledText b
  rw [cosaDmlEthGetLogStatus,syscfgValue_eq hlength,
    syscfgValue_eq fun t ht => (hlength t ht).trans (by decide)]
  cases ethLogEnabled with
  | none => rfl
  | some t =>
    rcases h.2 t rfl with rfl | ⟨b,rfl⟩
    · rfl
    · cases b <;> rfl

theorem scanWord_enabledText (b : Bool) :
    scanWord 6 (enabledText b ++ ['\n']) = some (enabledText b,['\n']) := by
  cases b <;> decide +kernel

/-- What is read from the file is what the data model holds. -/
theorem read_settingsText (c : IntStore) (hw : 32 ≤ w)
    (h : SettingsStored ethLogPeriod ethLogEnabled) (gEthLogInterval : Int)
    (gEthLogEnable : Text) :
    readUpdatedLogInterval c (settingsText ethLogPeriod ethLogEnabled) gEthLogInterval
        gEthLogEnable =
      (((cosaDmlEthGetLogStatus w ethLogPeriod ethLogEnabled).2.toNat : Int),
        enabledText (cosaDmlEthGetLogStatus w ethLogPeriod ethLogEnabled).1) := by
  obtain ⟨n,hn,htext,hperiod⟩ := h.period w
  have hscan : ∀ rest, scanDecimal (decimal n ++ ',' :: rest) = some ((n : Int),',' :: rest) :=
    fun rest => scanDecimal_append n fun c hc => by
      obtain rfl := Option.some_inj.mp hc
      decide
  have hwide : 2^32 ≤ 2^w := Nat.pow_le_pow_right (by decide) hw
  have hstore : c.store n = n := c.exact n (by omega) (by omega)
  have hnat : (BitVec.ofNat w n).toNat = n := by
    rw [BitVec.toNat_ofNat,Nat.mod_eq_of_lt (by omega)]
  rw [settingsText,htext,h.enabled w,readUpdatedLogInterval,hscan]
  simp only [scanWord_enabledText,hstore,hperiod,hnat]

def settingsOf (c : IntStore) (text : Text) : Option (Int × Bool) :=
  if text = [] then none
  else
    let globals := readUpdatedLogInterval c text 0 []
    some (globals.1,globals.2 = "true".toList)

def watchOf (c : IntStore) (s : EthTelemetry w) : Watch (Int × Bool) where
  content := s.ethLogFile.bind (settingsOf c)
  seen := (s.gEthLogInterval,s.gEthLogEnable = "true".toList)
  stage := s.thread
  modified := s.modified

structure Agreed (c : IntStore) (s : EthTelemetry w) : Prop where
  stored : SettingsStored s.ethLogPeriod s.ethLogEnabled
  status : (s.logEnable,s.logPeriod) = cosaDmlEthGetLogStatus w s.ethLogPeriod s.ethLogEnabled
  file : s.ethLogFile =
    some (if s.syncing then [] else settingsText s.ethLogPeriod s.ethLogEnabled)
  sound : Sound (watchOf c s)

variable {c : IntStore} {s : EthTelemetry w}

theorem enabledText_eq_true_iff (b : Bool) : (enabledText b = "true".toList) ↔ b = true := by
  cases b <;> decide

theorem settingsText_ne_nil (ethLogPeriod ethLogEnabled : Option Text) :
    settingsText ethLogPeriod ethLogEnabled ≠ [] := by
  simp [settingsText]

theorem settingsOf_settingsText (c : IntStore) (hw : 32 ≤ w) {logEnable : Bool}
    {logPeriod : BitVec w} (h : SettingsStored ethLogPeriod ethLogEnabled)
    (hstatus : (logEnable,logPeriod) = cosaDmlEthGetLogStatus w ethLogPeriod ethLogEnabled) :
    settingsOf c (settingsText ethLogPeriod ethLogEnabled) =
      some ((logPeriod.toNat : Int),logEnable) := by
  rw [settingsOf,if_neg (settingsText_ne_nil _ _),read_settingsText c hw h,← hstatus]
  simp only [enabledText_eq_true_iff,Bool.decide_eq_true]

theorem Agreed.content (h : Agreed c s) (hw : 32 ≤ w) :
    (watchOf c s).content =
      if s.syncing then none else some ((s.logPeriod.toNat : Int),s.logEnable) := by
  rw [watchOf,h.file,Option.bind_some]
  split
  · rfl
  · exact settingsOf_settingsText c hw h.stored h.status

theorem Agreed.upToDate_iff (h : Agreed c s) (hw : 32 ≤ w) :
    UpToDate (watchOf c s) ↔ (s.syncing = false → Follows s) := by
  rw [UpToDate,h.content hw]
  cases s.syncing with
  | true => simp
  | false =>
    simp only [Bool.false_eq_true,if_false,Option.mem_some_iff,forall_eq',forall_const,Follows,
      watchOf,Prod.mk.injEq]
    exact and_congr eq_comm (by cases s.logEnable <;> simp)

theorem Agreed.readFile (h : Agreed c s) (hw : 32 ≤ w) :
    watchOf c (s.readFile c) =
      { watchOf c s with seen := (watchOf c s).content.getD (watchOf c s).seen } := by
  have hcontent := h.content hw
  have hfile := h.file
  cases hsync : s.syncing with
  | true =>
    rw [hsync,if_pos rfl] at hfile hcontent
    have hsame : s.readFile c = s := by
      obtain ⟨_,_,_,_,_,_,_,_,_,_⟩ := s
      obtain rfl : _ = some [] := hfile
      rfl
    rw [hcontent,hsame]
    rfl
  | false =>
    rw [hsync,if_neg Bool.false_ne_true] at hfile hcontent
    rw [hcontent,EthTelemetry.readFile,hfile]
    simp only [watchOf,read_settingsText c hw h.stored,← h.status,Option.getD_some,
      enabledText_eq_true_iff,Bool.decide_eq_true,hfile]

theorem exists_readFile (c : IntStore) (s : EthTelemetry w) :
    ∃ gEthLogInterval gEthLogEnable, s.readFile c =
      { s with gEthLogInterval := gEthLogInterval,gEthLogEnable := gEthLogEnable } := by
  unfold EthTelemetry.readFile
  split
  · exact ⟨s.gEthLogInterval,s.gEthLogEnable,rfl⟩
  · exact ⟨_,_,rfl⟩

theorem Agreed.read (h : Agreed c s) (hw : 32 ≤ w) {thread : Stage}
    (hsound : Sound { watchOf c s with
      seen := (watchOf c s).content.getD (watchOf c s).seen,stage := thread }) :
    Agreed c { s.readFile c with thread := thread } := by
  have hwatch : watchOf c { s.readFile c with thread := thread } = { watchOf c s with
      seen := (watchOf c s).content.getD (watchOf c s).seen,stage := thread } :=
    congrArg (fun v : Watch (Int × Bool) => { v with stage := thread }) (h.readFile hw)
  rw [← hwatch] at hsound
  obtain ⟨gEthLogInterval,gEthLogEnable,hread⟩ := exists_readFile c s
  rw [hread] at hsound ⊢
  exact ⟨h.stored,h.status,h.file,hsound⟩

theorem Agreed.openSync (h : Agreed c s) {logEnable : Bool} {logPeriod : BitVec w}
    (hstored : SettingsStored ethLogPeriod ethLogEnabled)
    (hstatus : (logEnable,logPeriod) = cosaDmlEthGetLogStatus w ethLogPeriod ethLogEnabled) :
    Agreed c (EthTelemetry.openSync { s with
      ethLogPeriod := ethLogPeriod
      ethLogEnabled := ethLogEnabled
      logEnable := logEnable
      logPeriod := logPeriod } true) := by
  have hclear : Sound (Watched.step (watchOf c s) .clear) := h.sound.step trivial
  exact ⟨hstored,hstatus,rfl,hclear⟩

theorem SettingsStored.setEnabled (h : SettingsStored ethLogPeriod ethLogEnabled) (b : Bool) :
    SettingsStored ethLogPeriod (some (enabledText b)) :=
  ⟨h.1,fun _ ht => .inr ⟨b,(Option.some_inj.mp ht).symm⟩⟩

theorem SettingsStored.setPeriod (h : SettingsStored ethLogPeriod ethLogEnabled) {n : Nat}
    (hn : n < 2^31) : SettingsStored (some (decimal n)) ethLogEnabled :=
  ⟨fun _ ht => .inr ⟨n,hn,(Option.some_inj.mp ht).symm⟩,h.2⟩

theorem getLogStatus_setEnabled (w : Nat) (ethLogPeriod ethLogEnabled : Option Text) (b : Bool) :
    cosaDmlEthGetLogStatus w ethLogPeriod (some (enabledText b)) =
      (b,(cosaDmlEthGetLogStatus w ethLogPeriod ethLogEnabled).2) := by
  cases b <;> rfl

theorem getLogStatus_setPeriod (ethLogPeriod ethLogEnabled : Option Text) {u : BitVec w}
    (hu : u.toNat < 2^31) :
    cosaDmlEthGetLogStatus w (some (decimal u.toNat)) ethLogEnabled =
      ((cosaDmlEthGetLogStatus w ethLogPeriod ethLogEnabled).1,u) := by
  have hne : decimal u.toNat ≠ [] := Nat.toDigits_ne_nil
  have hlength : ∀ t ∈ some (decimal u.toNat), t.length < 16 := by
    intro t ht
    obtain rfl := Option.some_inj.mp ht
    have hdigits : (decimal u.toNat).length ≤ 10 := length_decimal_le (by decide) (by omega)
    omega
  rw [cosaDmlEthGetLogStatus,syscfgValue_eq hlength]
  simp [Option.filter,hne,atoi_decimal,cosaDmlEthGetLogStatus]

theorem agreed_started (c : IntStore) (w : Nat) (ethLogFile : Option Text)
    (h : SettingsStored ethLogPeriod ethLogEnabled) :
    Agreed c (started w ethLogPeriod ethLogEnabled ethLogFile true) :=
  ⟨h,rfl,rfl,⟨fun _ => rfl,fun hsettled => Stage.noConfusion hsettled.1⟩⟩

theorem Agreed.step (h : Agreed c s) (hw : 32 ≤ w) {ev : TelemetryStep w} (hplain : ev.Plain)
    (hc : CaughtUpAt s ev) : Agreed c (telemetryStep c s ev) := by
  cases ev with
  | setEnabled r opened =>
    obtain rfl : opened = true := hplain
    simp only [telemetryStep]
    split
    · next hset =>
      have hlog : (ethLoggingSetParamBoolValue s.logEnable r).2 = r.bValue := by
        simp [ethLoggingSetParamBoolValue,hset.2.1,hset.2.2]
      refine h.openSync (h.stored.setEnabled r.bValue) ?_
      rw [hlog,getLogStatus_setEnabled w _ s.ethLogEnabled,← h.status]
    · exact h
  | setPeriod r opened =>
    obtain ⟨rfl,hvalue⟩ := hplain
    simp only [telemetryStep]
    split
    · next hset =>
      have hlog : (ethLoggingSetParamUlongValue s.logPeriod r).2 = r.uValue := by
        simp [ethLoggingSetParamUlongValue,hset.2.1,hset.2.2]
      refine h.openSync (h.stored.setPeriod hvalue) ?_
      rw [hlog,getLogStatus_setPeriod s.ethLogPeriod _ hvalue,← h.status]
    · exact h
  | finishSync =>
    simp only [telemetryStep]
    split
    · have hwatch : Sound (Watched.step (watchOf c s)
          (.write ((s.logPeriod.toNat : Int),s.logEnable))) := h.sound.step trivial
      refine ⟨h.stored,h.status,rfl,?_⟩
      rw [watchOf,Option.bind_some,settingsOf_settingsText c hw h.stored h.status]
      exact hwatch
    · exact h
  | firstRead =>
    simp only [telemetryStep]
    split
    · next hexists =>
      have hwaiting : (watchOf c s).stage = .waiting := hexists.1
      have hnext : Sound (Watched.step (watchOf c s) .firstRead) := h.sound.step trivial
      rw [Watched.step,if_pos hwaiting] at hnext
      exact h.read hw hnext
    · exact h
  | addWatch =>
    simp only [telemetryStep]
    split
    · next hthread =>
      have hopened : (watchOf c s).stage = .opened := hthread
      have hnext : Sound (Watched.step (watchOf c s) .addWatch) :=
        h.sound.step fun _ => (h.upToDate_iff hw).mpr (hc hthread)
      rw [Watched.step,if_pos hopened] at hnext
      exact ⟨h.stored,h.status,h.file,hnext⟩
    · exact h
  | takeEvents =>
    simp only [telemetryStep]
    split
    · next hthread =>
      have hevents : (watchOf c s).stage = .asleep ∧ (watchOf c s).modified = true := hthread
      have hnext : Sound (Watched.step (watchOf c s) .take) := h.sound.step trivial
      rw [Watched.step,if_pos hevents] at hnext
      exact ⟨h.stored,h.status,h.file,hnext⟩
    · exact h
  | readSettings more =>
    simp only [telemetryStep]
    split
    · next hthread =>
      have hreading : (watchOf c s).stage = .reading := hthread
      have hnext : Sound (Watched.step (watchOf c s) (.read more)) := h.sound.step trivial
      rw [Watched.step,if_pos hreading] at hnext
      exact h.read hw hnext
    · exact h
  | restart opened =>
    obtain rfl : opened = true := hplain
    exact agreed_started c w s.ethLogFile h.stored

/-- A thread left asleep without a Sync under way has the present settings. -/
theorem Agreed.quiet (h : Agreed c s) (hw : 32 ≤ w) (hquiet : Quiet s) : Follows s :=
  (h.upToDate_iff hw).mp (h.sound.late hquiet.2) hquiet.1

theorem Agreed.caughtUp (h : Agreed c s) (hw : 32 ≤ w) {ev : TelemetryStep w}
    (hnext : Quiet (telemetryStep c s ev) → Follows (telemetryStep c s ev)) :
    CaughtUpAt s ev := by
  cases ev with
  | addWatch =>
    intro hopened hsync
    have hstage : (watchOf c s).stage = .opened := hopened
    have hcaught : CaughtUp (watchOf c s) .addWatch := h.sound.caughtUp fun hsettled => by
      rw [Watched.step,if_pos hstage] at hsettled ⊢
      simp only [telemetryStep,hopened,if_true] at hnext
      exact (h.upToDate_iff hw).mpr fun _ => hnext ⟨hsync,hsettled⟩
    exact (h.upToDate_iff hw).mp (hcaught hstage) hsync
  | setEnabled r opened => trivial
  | setPeriod r opened => trivial
  | finishSync => trivial
  | firstRead => trivial
  | takeEvents => trivial
  | readSettings more => trivial
  | restart opened => trivial

/-- In every run of requests, restarts and the event thread, whenever no Sync is under way
and the thread is left asleep, telemetry goes by the settings of the data model, exactly if
the thread never adds its watch after settings have changed that it read before. -/
theorem telemetry_follows_iff (c : IntStore) (hw : 32 ≤ w)
    (hstored : SettingsStored ethLogPeriod ethLogEnabled) (ethLogFile : Option Text)
    (steps : List (TelemetryStep w)) (hplain : ∀ ev ∈ steps, ev.Plain) :
    Always (telemetryStep c) (fun s => Quiet s → Follows s)
        (started w ethLogPeriod ethLogEnabled ethLogFile true) steps ↔
      Meets (telemetryStep c) CaughtUpAt (started w ethLogPeriod ethLogEnabled ethLogFile true)
        steps :=
  always_iff_meets_on (J := Agreed c) hplain (agreed_started c w ethLogFile hstored)
    (fun _ _ hev h hc => h.step hw hev hc) (fun _ h => h.quiet hw)
    (fun _ _ _ h hnext => h.caughtUp hw hnext)

/-- The log is enabled, and the thread reads the file while it is empty, and once more when
it is written. -/
theorem telemetry_follows_enabled :
    Always (telemetryStep wrappingInt) (fun s => Quiet s → Follows s)
      (started 32 none none none true)
      [.firstRead,.addWatch,.setEnabled ⟨"xOpsDMEthLogEnabled".toList,true,true⟩ true,.takeEvents,
        .readSettings false,.finishSync,.takeEvents,.readSettings false] :=
  (telemetry_follows_iff wrappingInt (Nat.le_refl 32) (by simp [SettingsStored]) none _
    (by simp [TelemetryStep.Plain])).mpr (by decide +kernel)

end EthAgent
