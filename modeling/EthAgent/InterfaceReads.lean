import EthAgent.AliasTransactions
import EthAgent.Lib.Latest
import EthAgent.SetTransaction

/-!
Gets between the Sets of an `Ethernet.Interface` row and their Commit. The row holds what
was set, and a Get of `Enable` or `MaxBitRate` reads the port into the same place first,
just as a Rollback does.
-/

set_option autoImplicit false

namespace EthAgent
open CString Packed Runs Latest

inductive InterfaceGet where
  | enable
  | upstream
  | maxBitRate
  | duplexMode
  | ifAlias
  deriving DecidableEq

inductive InterfaceReply where
  | bool (pBool : Bool)
  | int (pInt : Int)
  | ulong (puLong : Nat)
  | string (pValue : Text)
  deriving DecidableEq

/-- Whether `CosaDmlEthPortGetCfg` is called before the value is taken. -/
def InterfaceGet.refreshes : InterfaceGet → Bool
  | .enable => true
  | .maxBitRate => true
  | _ => false

def InterfaceGet.reply (row : PortFull) : InterfaceGet → InterfaceReply
  | .enable => .bool row.cfg.bEnabled
  | .upstream => .bool row.bUpstream
  | .maxBitRate => .int row.cfg.maxBitRate
  | .duplexMode => .ulong row.cfg.duplexMode
  | .ifAlias => .string row.cfg.ifAlias.text

/-- `Interface_GetParamBoolValue`, `_GetParamIntValue`, `_GetParamUlongValue` and
`_GetParamStringValue`. -/
def interfaceGetParamValue (b : InterfaceBuild) (s : EthInterfaces) (i : Nat)
    (paramName : InterfaceGet) (a : GetAnswers) : EthInterfaces × Option InterfaceReply :=
  -- the Rollback makes the same call for the row
  let s := if paramName.refreshes then interfaceRollback b s i a else s
  (s,s.rows[i]?.map paramName.reply)

inductive InterfaceEvent where
  | set (i : Nat) (v : InterfaceSet)
  | get (i : Nat) (paramName : InterfaceGet) (a : GetAnswers)
  | commit (i : Nat) (a : SetAnswers)
  | rollback (i : Nat) (a : GetAnswers)

def interfaceEvent (b : InterfaceBuild) (s : EthInterfaces) : InterfaceEvent → EthInterfaces
  | .set i v => interfaceStep b s (i,v)
  | .get i paramName a => (interfaceGetParamValue b s i paramName a).1
  | .commit i a => interfaceCommit b s i a
  | .rollback i a => interfaceRollback b s i a

/-- The event ends no transaction on the row. -/
def InterfaceEvent.LeavesOpen (i : Nat) : InterfaceEvent → Prop
  | .commit j _ => j ≠ i
  | .rollback j _ => j ≠ i
  | _ => True

def enableSet (i : Nat) : InterfaceEvent → Option Bool
  | .set j (.enable bValue) => if j = i then some bValue else none
  | _ => none

/-- An Alias that is too long is refused. -/
def aliasSet (i : Nat) : InterfaceEvent → Option (Buf 512)
  | .set j (.ifAlias pString) =>
    if j = i ∧ pString.length < 511 then some (Buf.store pString) else none
  | _ => none

/-- The answers with which an event reads the port into the row. -/
def portRead (i : Nat) : InterfaceEvent → Option GetAnswers
  | .get j paramName a => if j = i ∧ paramName.refreshes then some a else none
  | _ => none

def PortEntry.readEnable (e : PortEntry) (i : Nat) (ev : InterfaceEvent) : Option Bool :=
  (portRead i ev).map fun a => e.port.enabled a

def PortEntry.readAlias (e : PortEntry) (i : Nat) (ev : InterfaceEvent) : Option (Buf 512) :=
  (portRead i ev).map fun _ => e.ifAlias

theorem enableSet_of_read {e : PortEntry} {i : Nat} (ev : InterfaceEvent) (y : Bool)
    (h : e.readEnable i ev = some y) : enableSet i ev = none := by
  cases ev with
  | set j v => exact absurd h (by simp [PortEntry.readEnable,portRead])
  | _ => rfl

theorem aliasSet_of_read {e : PortEntry} {i : Nat} (ev : InterfaceEvent) (y : Buf 512)
    (h : e.readAlias i ev = some y) : aliasSet i ev = none := by
  cases ev with
  | set j v => exact absurd h (by simp [PortEntry.readAlias,portRead])
  | _ => rfl

theorem setParamValue_bEnabled (b : InterfaceBuild) (i : Nat) (v : InterfaceSet) (row : PortFull) :
    (interfaceSetParamValue b row v).2.cfg.bEnabled =
      (enableSet i (.set i v)).getD row.cfg.bEnabled := by
  cases v with
  | upstream bValue => cases hw : b.wanUpstream <;> simp [interfaceSetParamValue,enableSet,hw]
  | ifAlias pString =>
    by_cases hlen : pString.length < 511 <;> simp [interfaceSetParamValue,enableSet,hlen]
  | _ => simp [interfaceSetParamValue,enableSet]

theorem setParamValue_ifAlias (b : InterfaceBuild) (i : Nat) (v : InterfaceSet) (row : PortFull) :
    (interfaceSetParamValue b row v).2.cfg.ifAlias =
      (aliasSet i (.set i v)).getD row.cfg.ifAlias := by
  cases v with
  | upstream bValue => cases hw : b.wanUpstream <;> simp [interfaceSetParamValue,aliasSet,hw]
  | ifAlias pString =>
    by_cases hlen : pString.length < 511 <;> simp [interfaceSetParamValue,aliasSet,hlen]
  | _ => simp [interfaceSetParamValue,aliasSet]

/-- The row and its entry at one index, with what the row holds of the two values that a
Commit takes to the port. -/
structure HoldsPending (s : EthInterfaces) (i : Nat) (e : PortEntry) (enable : Bool)
    (ifAlias : Buf 512) : Prop where
  entry : s.entries[i]? = some e
  row : ∃ row, s.rows[i]? = some row ∧ row.cfg.bEnabled = enable ∧ row.cfg.ifAlias = ifAlias

theorem rows_modifyRow_of_ne {s : EthInterfaces} {i j : Nat} (hij : j ≠ i)
    (f : PortFull → PortFull) (hf : ∀ r, (f r).cfg.instanceNumber = r.cfg.instanceNumber) :
    (s.modifyRow j f hf).rows[i]? = s.rows[i]? := by
  simp [EthInterfaces.modifyRow,hij]

theorem rows_modifyRow_self {s : EthInterfaces} {i : Nat} {row : PortFull}
    (hrow : s.rows[i]? = some row) (f : PortFull → PortFull)
    (hf : ∀ r, (f r).cfg.instanceNumber = r.cfg.instanceNumber) :
    (s.modifyRow i f hf).rows[i]? = some (f row) := by
  simp [EthInterfaces.modifyRow,hrow]

theorem entries_interfaceCommit_of_ne {b : InterfaceBuild} {s : EthInterfaces} {i j : Nat}
    (hij : j ≠ i) (a : SetAnswers) : (interfaceCommit b s j a).entries[i]? = s.entries[i]? := by
  cases hrow : s.rows[j]? with
  | none => simp [interfaceCommit,hrow]
  | some row =>
    obtain ⟨hj,-⟩ := List.getElem?_eq_some_iff.mp hrow
    have he := List.getElem?_eq_getElem (s.length_eq ▸ hj)
    obtain ⟨hj',hfound,-⟩ := getIF_row hrow he
    simp [interfaceCommit,hrow,cosaDmlEthPortSetCfg,hfound,hij]

section Steps

variable {b : InterfaceBuild} {s : EthInterfaces} {i : Nat} {e : PortEntry} {enable : Bool}
  {ifAlias : Buf 512}

/-- An event that touches neither leaves row and entry as they are. -/
theorem HoldsPending.of_eq (h : HoldsPending s i e enable ifAlias) {t : EthInterfaces}
    (hentries : t.entries[i]? = s.entries[i]?) (hrows : t.rows[i]? = s.rows[i]?) :
    HoldsPending t i e enable ifAlias where
  entry := hentries.trans h.entry
  row := by rw [hrows]; exact h.row

theorem HoldsPending.set (h : HoldsPending s i e enable ifAlias) (j : Nat) (v : InterfaceSet) :
    HoldsPending (interfaceStep b s (j,v)) i e ((enableSet i (.set j v)).getD enable)
      ((aliasSet i (.set j v)).getD ifAlias) := by
  by_cases hij : j = i
  · subst hij
    obtain ⟨row,hrow,henable,halias⟩ := h.row
    refine ⟨h.entry,_,rows_modifyRow_self hrow _ _,?_,?_⟩
    · rw [setParamValue_bEnabled b j v row,henable]
    · rw [setParamValue_ifAlias b j v row,halias]
  · have hno : enableSet i (.set j v) = none ∧ aliasSet i (.set j v) = none := by
      cases v <;> simp [enableSet,aliasSet,hij]
    rw [hno.1,hno.2]
    exact h.of_eq rfl (rows_modifyRow_of_ne hij _ _)

/-- Reading the port puts its values in the place of the pending ones. -/
theorem HoldsPending.read (h : HoldsPending s i e enable ifAlias) (a : GetAnswers) :
    HoldsPending (interfaceRollback b s i a) i e (e.port.enabled a) e.ifAlias := by
  obtain ⟨row,hrow,-,-⟩ := h.row
  refine ⟨h.entry,_,rows_modifyRow_self hrow _ _,?_,?_⟩
  · rw [getCfg_row hrow h.entry a,e.getCfg_eq]
  · rw [getCfg_row hrow h.entry a,e.getCfg_eq]

theorem HoldsPending.rollback_of_ne (h : HoldsPending s i e enable ifAlias) {j : Nat}
    (hij : j ≠ i) (a : GetAnswers) : HoldsPending (interfaceRollback b s j a) i e enable ifAlias :=
  h.of_eq rfl (rows_modifyRow_of_ne hij _ fun row => getCfg_number b s.entries row.cfg a)

theorem HoldsPending.event (h : HoldsPending s i e enable ifAlias) {ev : InterfaceEvent}
    (hopen : ev.LeavesOpen i) :
    HoldsPending (interfaceEvent b s ev) i e
      (((enableSet i ev).or (e.readEnable i ev)).getD enable)
      (((aliasSet i ev).or (e.readAlias i ev)).getD ifAlias) := by
  cases ev with
  | set j v =>
    simpa [interfaceEvent,PortEntry.readEnable,PortEntry.readAlias,portRead] using h.set j v
  | get j paramName a =>
    simp only [interfaceEvent,interfaceGetParamValue,enableSet,aliasSet,Option.none_or,
      PortEntry.readEnable,PortEntry.readAlias,portRead]
    by_cases hij : j = i
    · subst hij
      cases hr : paramName.refreshes with
      | false => simpa using h
      | true => simpa using h.read a
    · cases hr : paramName.refreshes with
      | false => simpa [hij] using h
      | true => simpa [hij] using h.rollback_of_ne hij a
  | commit j a =>
    refine h.of_eq (entries_interfaceCommit_of_ne hopen a) ?_
    rw [interfaceEvent,rows_interfaceCommit]
  | rollback j a => exact h.rollback_of_ne hopen a

theorem HoldsPending.run (h : HoldsPending s i e enable ifAlias) {events : List InterfaceEvent}
    (hopen : ∀ ev ∈ events, ev.LeavesOpen i) :
    HoldsPending (exec (interfaceEvent b) s events) i e
      ((latest (fun ev => (enableSet i ev).or (e.readEnable i ev)) events).getD enable)
      ((latest (fun ev => (aliasSet i ev).or (e.readAlias i ev)) events).getD ifAlias) := by
  induction events generalizing s enable ifAlias with
  | nil => exact h
  | cons ev events ih =>
    have hnext := ih (h.event (b := b) (hopen ev List.mem_cons_self)) fun ev' hmem =>
      hopen ev' (List.mem_cons_of_mem ev hmem)
    simpa only [exec_cons,latest_cons,Option.getD_or] using hnext

end Steps

/-- The two values that the Sets ask for, over what the row holds at first. -/
def askedEnable (i : Nat) (row : PortFull) (events : List InterfaceEvent) : Bool :=
  (latest (enableSet i) events).getD row.cfg.bEnabled

def askedAlias (i : Nat) (row : PortFull) (events : List InterfaceEvent) : Buf 512 :=
  (latest (aliasSet i) events).getD row.cfg.ifAlias

/-- The last reading, if no Set comes after it, finds what is asked for. -/
def LastReadFinds {α : Type} (set read : InterfaceEvent → Option α)
    (events : List InterfaceEvent) (asked : α) : Prop :=
  ∀ before get after found, events = before ++ get :: after → read get = some found →
    (∀ ev ∈ after, set ev = none ∧ read ev = none) → found = asked

/-- What a Get of `Enable` shows of the port at the index, and its Alias. -/
def PortHas (s : EthInterfaces) (i : Nat) (g : GetAnswers) (enable : Bool)
    (ifAlias : Buf 512) : Prop :=
  ∃ e, s.entries[i]? = some e ∧ e.port.enabled g = enable ∧ e.ifAlias = ifAlias

theorem enabled_setCfg (b : InterfaceBuild) {e : PortEntry} {pCfg : PortCfg}
    (hnumber : pCfg.instanceNumber = e.instanceNumber) {a : SetAnswers} (ha : a.Succeed)
    {g : GetAnswers} (hg : g.Succeed) :
    (e.setCfg b pCfg a).port.enabled g = pCfg.bEnabled := by
  have hback := e.getCfg_setCfg b hnumber ha hg
  rw [PortEntry.getCfg_eq] at hback
  exact congrArg PortCfg.bEnabled hback

theorem HoldsPending.commit {b : InterfaceBuild} {s : EthInterfaces} {i : Nat} {e : PortEntry}
    {enable : Bool} {ifAlias : Buf 512} (h : HoldsPending s i e enable ifAlias) {a : SetAnswers}
    (ha : a.Succeed) {g : GetAnswers} (hg : g.Succeed) (enable' : Bool) (ifAlias' : Buf 512) :
    PortHas (interfaceCommit b s i a) i g enable' ifAlias' ↔
      enable = enable' ∧ ifAlias = ifAlias' := by
  obtain ⟨row,hrow,henable,halias⟩ := h.row
  obtain ⟨-,-,-,hnumber⟩ := getIF_row hrow h.entry
  have hentry := entries_interfaceCommit (b := b) hrow h.entry a
  rw [PortHas,hentry]
  simp only [Option.some_inj]
  constructor
  · intro hhas
    obtain ⟨e',rfl,hport,hname⟩ := hhas
    rw [enabled_setCfg b hnumber ha hg,henable] at hport
    rw [e.setCfg_ifAlias b row.cfg a,halias] at hname
    exact ⟨hport,hname⟩
  · intro hasked
    obtain ⟨rfl,rfl⟩ := hasked
    exact ⟨_,rfl,(enabled_setCfg b hnumber ha hg).trans henable,
      (e.setCfg_ifAlias b row.cfg a).trans halias⟩

/-- Whatever happens to the other rows between, a Commit takes to the port the `Enable`
and the Alias that were last set, exactly if no Get has read others into the row since. -/
theorem pending_sets_survive_iff (b : InterfaceBuild) {s : EthInterfaces} {i : Nat}
    {row : PortFull} (hrow : s.rows[i]? = some row) {e : PortEntry}
    (he : s.entries[i]? = some e) {events : List InterfaceEvent}
    (hopen : ∀ ev ∈ events, ev.LeavesOpen i) {a : SetAnswers} (ha : a.Succeed)
    {g : GetAnswers} (hg : g.Succeed) :
    PortHas (interfaceCommit b (exec (interfaceEvent b) s events) i a) i g
        (askedEnable i row events) (askedAlias i row events) ↔
      LastReadFinds (enableSet i) (e.readEnable i) events (askedEnable i row events) ∧
      LastReadFinds (aliasSet i) (e.readAlias i) events (askedAlias i row events) := by
  have h0 : HoldsPending s i e row.cfg.bEnabled row.cfg.ifAlias := ⟨he,row,hrow,rfl,rfl⟩
  rw [(h0.run hopen).commit ha hg]
  exact and_congr (getD_latest_or_iff enableSet_of_read) (getD_latest_or_iff aliasSet_of_read)

def clearedThenRead : List InterfaceEvent :=
  [.set 1 (.enable false),.get 1 .maxBitRate allDone]

theorem clearedThenRead_leavesOpen : ∀ ev ∈ clearedThenRead, ev.LeavesOpen 1 := by
  simp [clearedThenRead,InterfaceEvent.LeavesOpen]

/-- The port stays up. -/
theorem cleared_enable_lost :
    ¬ PortHas (interfaceCommit ⟨false,false⟩ (exec (interfaceEvent ⟨false,false⟩)
        (twoPorts ⟨false,false⟩) clearedThenRead) 1 allSet) 1 allDone false (interfaceAlias 2) := by
  have hiff := pending_sets_survive_iff ⟨false,false⟩ (s := twoPorts ⟨false,false⟩) (i := 1) rfl
    rfl clearedThenRead_leavesOpen (a := allSet) ⟨⟨rfl,rfl,⟨rfl,rfl⟩⟩,rfl,⟨rfl,rfl⟩,rfl⟩
    (g := allDone) ⟨rfl,rfl,⟨rfl,rfl⟩⟩
  refine fun h => absurd ((hiff.mp h).1 [.set 1 (.enable false)] (.get 1 .maxBitRate allDone) []
    true rfl rfl (by simp)) ?_
  decide

end EthAgent
