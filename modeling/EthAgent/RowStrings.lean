import EthAgent.SetTransaction

/-!
`EthRdkInterface_SetParamStringValue` writes the global record first and the row
after a test of the length: when the two copies of a Name or of LowerLayers are
set together.
-/

set_option autoImplicit false

namespace EthAgent
open CString Packed Runs

def StringParam.inRow : StringParam → EthRow → Text
  | .name, row => row.name.text
  | .lowerLayers, row => row.lowerLayers.text

def StringParam.inRecord : StringParam → PortRecord → Text
  | .name, record => record.name.text
  | .lowerLayers, record => record.lowerLayers.text

def StringParam.writeRow : StringParam → Text → EthRow → EthRow
  | .name, pString, row => { row with name := Buf.store pString }
  | .lowerLayers, pString, row => { row with lowerLayers := Buf.store pString }

def StringParam.writeRecord : StringParam → Text → PortRecord → PortRecord
  | .name, pString, record => { record with name := record.name.strncpy pString }
  | .lowerLayers, pString, record =>
    { record with lowerLayers := record.lowerLayers.strncpy pString }

/-- The record holds the text once it is copied there. -/
def StringParam.Takes : StringParam → PortRecord → Text → Prop
  | .name, record => record.name.Takes
  | .lowerLayers, record => record.lowerLayers.Takes

def StringParam.written : StringParam → PortRecord → Text
  | .name, record => record.name.front
  | .lowerLayers, record => record.lowerLayers.front

def StringParam.longest : StringParam → Nat
  | .name => 63
  | .lowerLayers => 126

def StringParam.copied : StringParam → Text → Text
  | .name, pString => pString.take 63
  | .lowerLayers, pString => pString.take 127

/-- The record that a Set writes, unless it is refused: a Name must be new, the
LowerLayers of an internal port cannot be set. -/
def StringParam.target (p : Platform) (t : PortTable) (row : EthRow) (pString : Text) :
    StringParam → Option Nat
  | .name =>
    if pString ∈ t.names then none
    else cosaDmlEthPortGetIndexFromIfName t (some row.name.text)
  | .lowerLayers =>
    (cosaDmlEthPortGetIndexFromIfName t (some row.name.text)).filter
      fun i => p.totalNumberOfInternalInterfaces ≤ i

/-- The name that the setter looks up first. If this lookup stays inside the table, so
does the second one of a new Name. -/
def StringParam.lookedUp (row : EthRow) (pString : Text) : StringParam → Text
  | .name => pString
  | .lowerLayers => row.name.text

/-- No lookup leaves the table, and row and record are left alone, or both hold the text. -/
def SetTogether (p : Platform) (e : Ethernet) : RowOp → Prop
  | .setString ins paramName pString =>
    ∀ row, e.row ins = some row → ¬e.ports.Leaves (paramName.lookedUp row pString) ∧
      let set := ethRdkInterfaceSetParamStringValue p e ins paramName pString
      (set.1 = false ∧ set.2 = e) ∨
        (set.1 = true ∧ ∃ i row' record,
          cosaDmlEthPortGetIndexFromIfName e.ports (some row.name.text) = some i ∧
            set.2.row ins = some row' ∧ set.2.ports.records[i]? = some record ∧
            paramName.inRow row' = pString ∧ paramName.inRecord record = pString)
  | _ => True

/-- The name looked up is in the table, or `gTotal` counts no more than the records; and the
Set is refused by the table, or row and record take the text, or the row does not and the
record has as much of it as is copied there. -/
def TextTaken (p : Platform) (e : Ethernet) : RowOp → Prop
  | .setString ins paramName pString =>
    ∀ row, e.row ins = some row →
      (paramName.lookedUp row pString ∉ e.ports.names → ∀ recs,
        e.ports.gpstEthGInfo = some recs → e.ports.gTotal ≤ recs.length) ∧
      ∀ i record, paramName.target p e.ports row pString = some i →
        e.ports.records[i]? = some record →
          if pString.length ≤ paramName.longest then paramName.Takes record pString
          else paramName.written record = paramName.copied pString
  | _ => True

theorem StringParam.index_of_target {p : Platform} {t : PortTable} {row : EthRow}
    {pString : Text} {paramName : StringParam} {i : Nat}
    (h : paramName.target p t row pString = some i) :
    cosaDmlEthPortGetIndexFromIfName t (some row.name.text) = some i := by
  cases paramName with
  | name =>
    rw [target] at h
    split at h
    · exact absurd h (by simp)
    · exact h
  | lowerLayers => exact (Option.filter_eq_some_iff.mp h).1

theorem setString_refused {p : Platform} {e : Ethernet} {ins : Nat} {row : EthRow}
    {paramName : StringParam} {pString : Text} (hrow : e.row ins = some row)
    (h : paramName.target p e.ports row pString = none) :
    ethRdkInterfaceSetParamStringValue p e ins paramName pString = (false,e) := by
  cases paramName with
  | name =>
    have hset : cosaDmlEthPortSetName e.ports (some row.name.text) (some pString) =
        (false,e.ports) := by
      refine setName_refused fun i hnew hi => ?_
      rw [StringParam.target,if_neg ((getIndexFromIfName_eq_none_iff _ _).mp hnew),hi] at h
      exact absurd h (by simp)
    rw [ethRdkInterfaceSetParamStringValue]
    simp only [hrow,hset,Bool.false_eq_true,if_false]
  | lowerLayers =>
    have hset : cosaDmlEthPortSetLowerLayers p e.ports (some row.name.text) (some pString) =
        (false,e.ports) := by
      rw [cosaDmlEthPortSetLowerLayers]
      cases hi : cosaDmlEthPortGetIndexFromIfName e.ports (some row.name.text) with
      | none => rfl
      | some i =>
        have hlow : ¬p.totalNumberOfInternalInterfaces ≤ i := by
          simpa [StringParam.target,hi] using h
        simp only [if_pos (Nat.lt_of_not_le hlow)]
    rw [ethRdkInterfaceSetParamStringValue]
    simp only [hrow,hset,Bool.false_eq_true,if_false]

/-- The record is written in any case, the row if it takes the text. -/
theorem setString_of_target {p : Platform} {e : Ethernet} {ins i : Nat} {row : EthRow}
    {paramName : StringParam} {pString : Text} (hrow : e.row ins = some row)
    (h : paramName.target p e.ports row pString = some i) :
    ethRdkInterfaceSetParamStringValue p e ins paramName pString =
      if pString.length ≤ paramName.longest then
        (true,{ e with
          ports := e.ports.modifyRecord i (paramName.writeRecord pString)
          qEthList := modifyRow ins (paramName.writeRow pString) e.qEthList })
      else (false,{ e with ports := e.ports.modifyRecord i (paramName.writeRecord pString) }) := by
  have hi := StringParam.index_of_target h
  cases paramName with
  | name =>
    have hnew : pString ∉ e.ports.names := fun hmem => by
      rw [StringParam.target,if_pos hmem] at h
      exact absurd h (by simp)
    have hset := setName_accepted ((getIndexFromIfName_eq_none_iff _ _).mpr hnew) hi
    simp only [ethRdkInterfaceSetParamStringValue,hrow,hset,if_true]
    rfl
  | lowerLayers =>
    have hhigh : p.totalNumberOfInternalInterfaces ≤ i := by
      simpa using (Option.filter_eq_some_iff.mp h).2
    simp only [ethRdkInterfaceSetParamStringValue,cosaDmlEthPortSetLowerLayers,hrow,hi,
      if_neg (Nat.not_lt.mpr hhigh),if_true,StringParam.longest,Nat.lt_succ_iff]
    rfl

theorem writeRecord_eq_self_iff (paramName : StringParam) (pString : Text)
    (record : PortRecord) :
    paramName.writeRecord pString record = record ↔
      paramName.written record = paramName.copied pString := by
  cases paramName with
  | name =>
    refine Iff.trans ?_ (Chars.strncpy_eq_self_iff (s := record.name) (t := pString))
    exact ⟨congrArg PortRecord.name,fun h => by rw [StringParam.writeRecord,h]⟩
  | lowerLayers =>
    refine Iff.trans ?_ (Chars.strncpy_eq_self_iff (s := record.lowerLayers) (t := pString))
    exact ⟨congrArg PortRecord.lowerLayers,fun h => by rw [StringParam.writeRecord,h]⟩

theorem inRecord_writeRecord_iff (paramName : StringParam) (pString : Text)
    (record : PortRecord) :
    paramName.inRecord (paramName.writeRecord pString record) = pString ↔
      paramName.Takes record pString := by
  cases paramName with
  | name => exact Chars.takes_iff
  | lowerLayers => exact Chars.takes_iff

theorem inRow_writeRow {paramName : StringParam} {pString : Text}
    (h : pString.length ≤ paramName.longest) (row : EthRow) :
    paramName.inRow (paramName.writeRow pString row) = pString := by
  cases paramName with
  | name => exact Buf.store_text_of_lt (Nat.lt_succ_of_le h)
  | lowerLayers => exact Buf.store_text_of_lt (Nat.lt_of_le_of_lt h (by decide))

theorem row_writeRow {e : Ethernet} {ins : Nat} {row : EthRow} (hrow : e.row ins = some row)
    (paramName : StringParam) (pString : Text) (ports : PortTable) :
    ({ e with
      ports := ports
      qEthList := modifyRow ins (paramName.writeRow pString) e.qEthList } : Ethernet).row ins =
      some (paramName.writeRow pString row) := by
  have hnumber : ∀ r, (paramName.writeRow pString r).ulInstanceNumber = r.ulInstanceNumber :=
    fun r => by cases paramName <;> rfl
  have h := find_modifyRow hnumber e.qEthList ins ins
  rw [if_pos rfl,show e.qEthList.find? _ = some row from hrow] at h
  exact h

theorem setTogether_setString_iff (p : Platform) (e : Ethernet) (ins : Nat)
    (paramName : StringParam) (pString : Text) :
    SetTogether p e (.setString ins paramName pString) ↔
      TextTaken p e (.setString ins paramName pString) := by
  rw [SetTogether,TextTaken]
  refine forall_congr' fun row => forall_congr' fun hrow =>
    and_congr (not_leaves_iff e.ports _) ?_
  cases htarget : paramName.target p e.ports row pString with
  | none =>
    refine iff_of_true (.inl ?_) fun i record hi => absurd hi (by simp)
    simp only [setString_refused hrow htarget,and_self]
  | some i =>
    obtain ⟨record,hrecord,-⟩ := record_of_index (StringParam.index_of_target htarget)
    simp only [Option.some_inj]
    constructor
    · rintro hset _ _ rfl hrecord'
      obtain rfl := Option.some_inj.mp (hrecord.symm.trans hrecord')
      simp only [setString_of_target hrow htarget] at hset
      by_cases htaken : pString.length ≤ paramName.longest
      · rw [if_pos htaken]
        simp only [if_pos htaken,Bool.true_eq_false,false_and,false_or,true_and] at hset
        obtain ⟨i',row',record',hi',-,hget,-,hvalue⟩ := hset
        obtain rfl := Option.some_inj.mp ((StringParam.index_of_target htarget).symm.trans hi')
        rw [records_modifyRecord,List.getElem?_modify_eq,hrecord] at hget
        rw [← inRecord_writeRecord_iff,Option.some_inj.mp hget]
        exact hvalue
      · rw [if_neg htaken]
        simp only [if_neg htaken,Bool.false_eq_true,true_and,false_and,or_false] at hset
        have hports := congrArg Ethernet.ports hset
        exact (writeRecord_eq_self_iff paramName pString record).mp
          ((modifyRecord_eq_self_iff hrecord).mp hports)
    · intro h
      have hrecordTaken := h i record rfl hrecord
      rw [setString_of_target hrow htarget]
      by_cases htaken : pString.length ≤ paramName.longest
      · rw [if_pos htaken] at hrecordTaken
        rw [if_pos htaken]
        refine .inr ⟨rfl,i,_,paramName.writeRecord pString record,
          StringParam.index_of_target htarget,row_writeRow hrow paramName pString _,?_,
          inRow_writeRow htaken row,(inRecord_writeRecord_iff _ _ _).mpr hrecordTaken⟩
        rw [records_modifyRecord,List.getElem?_modify_eq,hrecord]
        rfl
      · rw [if_neg htaken] at hrecordTaken
        rw [if_neg htaken]
        have hwrite := (writeRecord_eq_self_iff paramName pString record).mpr hrecordTaken
        refine .inl ⟨rfl,?_⟩
        rw [(modifyRecord_eq_self_iff hrecord).mpr hwrite]

theorem strings_set_together_iff (p : Platform) (e : Ethernet) (ops : List RowOp) :
    Meets (rowOp p) (SetTogether p) e ops ↔ Meets (rowOp p) (TextTaken p) e ops := by
  refine meets_congr (J := fun _ => True) trivial (fun _ _ _ _ => trivial) fun e op _ => ?_
  cases op with
  | setString ins paramName pString =>
    exact setTogether_setString_iff p e ins paramName pString
  | addEntry allocated reallocated => exact Iff.rfl
  | delEntry ins reallocated => exact Iff.rfl

/-- A Name of 64 characters is refused after its first 63 are in the record. -/
theorem long_name_in_record_only :
    ¬Meets (rowOp fourPorts) (SetTogether fourPorts) (cosaDmlEthPortInit fourPorts unconfigured)
      [.setString 1 .name (List.replicate 64 'x')] := by
  rintro ⟨h,-⟩
  rcases (h _ rfl).2 with ⟨-,hsame⟩ | ⟨htrue,-⟩
  · have hnames := congrArg (fun e : Ethernet => e.ports.names) hsame
    exact absurd hnames (by decide +kernel)
  · exact absurd htrue (by decide +kernel)

end EthAgent
