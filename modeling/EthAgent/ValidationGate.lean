import EthAgent.LinkAgent

/-!
The gate of WAN validation: the row of a port has a WanValidated parameter, the
machine reads a field of that name in the global record, and nothing connects
the two.
-/

set_option autoImplicit false

namespace EthAgent
open CString Packed Runs

/-- The row of the machine's port has WanValidated set. -/
def RowValidated (a : LinkAgent) : Prop :=
  ∃ r ∈ a.ethernet.qEthList, a.control.pstInfo = some r.name ∧ r.wanValidated = true

instance (a : LinkAgent) : Decidable (RowValidated a) := inferInstanceAs (Decidable (∃ _ ∈ _, _))

/-- The machine takes `Transition_EthWanLinkFound` on a validated row only. -/
def FindsValidatedLink (a : LinkAgent) : LinkEvent → Prop
  | .machine _ =>
    a.control.thread = .looping →
      linkMove a.record a.control.geCurrentState = .ethWanLinkFound → RowValidated a
  | _ => True

def PortRecord.Ready (r : PortRecord) : Prop := r.upstream = true ∧ r.linkStatus = .up

instance (r : PortRecord) : Decidable r.Ready := inferInstanceAs (Decidable (_ ∧ _))

/-- The machine's port has this name. -/
def LinkAgent.Owns (a : LinkAgent) (x : Text) : Prop := a.control.pstInfo.map Buf.text = some x

instance (a : LinkAgent) (x : Text) : Decidable (a.Owns x) := inferInstanceAs (Decidable (_ = _))

/-- The machine is started for a port whose link is up only if its row is validated. -/
def StartsValidated (a : LinkAgent) (ev : LinkEvent) : Prop :=
  ∀ request ∈ startRequest a ev, request.2.allocated = true →
    ∀ g ∈ cosaDmlEthPortGetCopyOfGlobalInfoForGivenIfName a.ethernet.ports
      (some request.1.text), g.linkStatus = .up →
        ∃ r ∈ a.ethernet.qEthList, r.name = request.1 ∧ r.wanValidated = true

/-- The link of the machine's port comes up only if the row is validated. -/
def RisesValidated (a : LinkAgent) (x : Text) : Prop :=
  a.Owns x → ∀ g ∈ a.record, g.upstream = true → RowValidated a

/-- The row of the machine's port is validated before the port is ready, and as long as it
is. -/
def KeepsGate (p : Platform) (a : LinkAgent) : LinkEvent → Prop
  | .setUpstream ifname upstream start => StartsValidated a (.setUpstream ifname upstream start)
  | .setBool ins .upstream bValue start => StartsValidated a (.setBool ins .upstream bValue start)
  | .linkStatus ifname state =>
    ∀ x ∈ ifname, ∀ s ∈ state, (s.take 2).map Char.toLower = ['u','p'] → RisesValidated a x
  | .setBool ins .enable bValue _ =>
    bValue = true → ∀ row ∈ a.ethernet.row ins, row.enable = false →
      ∀ i ∈ cosaDmlEthPortGetIndexFromIfName a.ethernet.ports (some row.name.text),
        p.totalNumberOfInternalInterfaces ≤ i → RisesValidated a row.name.text
  | .setBool ins .wanValidated bValue _ =>
    bValue = false → ∀ row ∈ a.ethernet.row ins, row.wanValidated = true →
      a.Owns row.name.text → ∀ g ∈ a.record, ¬g.Ready
  | .setString ins .name pString =>
    ∀ row ∈ a.ethernet.row ins, pString ∉ a.ethernet.ports.names →
      pString.take 63 ≠ row.name.text →
        (a.Owns row.name.text → a.ethernet.ports.names.count row.name.text ≤ 1) ∧
          (a.Owns (pString.take 63) → row.wanValidated = true ∧ pString.length ≤ 63 ∨
            ∀ g ∈ cosaDmlEthPortGetCopyOfGlobalInfoForGivenIfName a.ethernet.ports
              (some row.name.text), ¬g.Ready)
  | _ => True

/-- The port of the machine is ready only while its row is validated. -/
def GateKept (a : LinkAgent) : Prop := ∀ g, a.record = some g → g.Ready → RowValidated a

section table
variable {t : PortTable} {i : Nat} {f : PortRecord → PortRecord} {x n : Text} {g : PortRecord}

/-- Where one field of a record is written, the record of a name is as before, or the one
that is written. -/
theorem copy_modifyRecord (hf : ∀ r, (f r).name = r.name)
    (hg : cosaDmlEthPortGetCopyOfGlobalInfoForGivenIfName (t.modifyRecord i f) (some n) =
      some g) :
    cosaDmlEthPortGetCopyOfGlobalInfoForGivenIfName t (some n) = some g ∨
      cosaDmlEthPortGetIndexFromIfName t (some n) = some i ∧
        ∃ g₀, cosaDmlEthPortGetCopyOfGlobalInfoForGivenIfName t (some n) = some g₀ ∧
          g = f g₀ := by
  by_cases hi : cosaDmlEthPortGetIndexFromIfName t (some n) = some i
  · rw [getCopy_modifyRecord hi hf,Option.map_eq_some_iff] at hg
    obtain ⟨g₀,hg₀,rfl⟩ := hg
    exact .inr ⟨hi,g₀,hg₀,rfl⟩
  · rw [getCopy_modifyRecord_of_ne hi hf] at hg
    exact .inl hg

theorem name_of_index (hn : cosaDmlEthPortGetIndexFromIfName t (some n) = some i)
    (hx : cosaDmlEthPortGetIndexFromIfName t (some x) = some i) : n = x := by
  obtain ⟨r,hr,rfl⟩ := record_of_index hn
  obtain ⟨r',hr',rfl⟩ := record_of_index hx
  rw [Option.some_inj.mp (hr.symm.trans hr')]

theorem modifyRecord_eq_self {r : PortRecord} (hr : t.records[i]? = some r) (hf : f r = r) :
    t.modifyRecord i f = t := by
  obtain ⟨info,gTotal,ulTotal⟩ := t
  cases info with
  | none => rfl
  | some recs =>
    have hrecs : recs.modify i f = recs := modify_eq_self_iff.mpr fun r' hr' => by
      rwa [← Option.some_inj.mp (Eq.trans hr.symm hr')]
    rw [PortTable.modifyRecord,Option.map_some,hrecs]

theorem setName_result (t : PortTable) (x newName : Text) :
    cosaDmlEthPortSetName t (some x) (some newName) = (false,t) ∨
      ∃ i, cosaDmlEthPortGetIndexFromIfName t (some x) = some i ∧ newName ∉ t.names ∧
        cosaDmlEthPortSetName t (some x) (some newName) =
          (true,t.modifyRecord i fun r => { r with name := r.name.strncpy newName }) := by
  unfold cosaDmlEthPortSetName
  cases hnew : cosaDmlEthPortGetIndexFromIfName t (some newName) with
  | some j => exact .inl (by simp [hnew])
  | none =>
    have hnot := (getIndexFromIfName_eq_none_iff _ _).mp hnew
    cases hi : cosaDmlEthPortGetIndexFromIfName t (some x) with
    | none => exact .inl (by simp [hnew])
    | some i =>
      by_cases htotal : t.gTotal ≤ i
      · exact .inl (by simp [hnew,htotal])
      · exact .inr ⟨i,rfl,hnot,by simp [hnew,htotal]⟩

theorem names_rename (hi : cosaDmlEthPortGetIndexFromIfName t (some x) = some i)
    {r : PortRecord} (hr : t.records[i]? = some r) :
    (t.modifyRecord i f).names = t.names.set i (f r).name.text := by
  have hlt := ((getIndexFromIfName_eq_some_iff _ _ _).mp hi).lt
  have htotal : i < t.gTotal := by
    simp only [PortTable.names,List.length_map,List.length_take] at hlt
    omega
  have htake : (t.records.take t.gTotal)[i]? = some r := by
    rw [List.getElem?_take_of_lt htotal,hr]
  have hmap := map_modify_of_getElem? (f := f) (g := fun r : PortRecord => r.name.text) htake
  have hgTotal : (t.modifyRecord i f).gTotal = t.gTotal := rfl
  rw [PortTable.names,records_modifyRecord,PortTable.names,hgTotal,List.take_modify,hmap]

/-- A renamed record is the only one whose name changes. The old name leads to another
record then only if it stood in the table twice. -/
theorem copy_rename (hi : cosaDmlEthPortGetIndexFromIfName t (some x) = some i)
    {r : PortRecord} (hr : t.records[i]? = some r) (hx : (f r).name.text ≠ x)
    (hg : cosaDmlEthPortGetCopyOfGlobalInfoForGivenIfName (t.modifyRecord i f) (some n) =
      some g) :
    n ≠ x ∧ cosaDmlEthPortGetCopyOfGlobalInfoForGivenIfName t (some n) = some g ∨
      n = (f r).name.text ∧ g = f r ∨ n = x ∧ 1 < t.names.count x := by
  have hfirst := (getIndexFromIfName_eq_some_iff _ _ _).mp hi
  rw [cosaDmlEthPortGetCopyOfGlobalInfoForGivenIfName,Option.bind_eq_some_iff] at hg
  obtain ⟨j,hj,hgj⟩ := hg
  have hnew := (getIndexFromIfName_eq_some_iff _ _ _).mp hj
  rw [names_rename hi hr] at hnew
  rw [records_modifyRecord] at hgj
  have hcopy : FirstAt t.names n j → i ≠ j → t.records[j]? = some g →
      cosaDmlEthPortGetCopyOfGlobalInfoForGivenIfName t (some n) = some g := fun h hij hrec => by
    rw [getCopy_of_index ((getIndexFromIfName_eq_some_iff _ _ _).mpr h),hrec]
  by_cases hij : i = j
  · subst hij
    rw [List.getElem?_modify_eq,hr] at hgj
    have hname := hnew.1
    rw [List.getElem?_set_self hfirst.lt] at hname
    exact .inr (.inl ⟨(Option.some_inj.mp hname).symm,(Option.some_inj.mp hgj).symm⟩)
  · rw [List.getElem?_modify_ne _ _ hij] at hgj
    by_cases hnx : n = x
    · subst hnx
      obtain ⟨others,hold,hset⟩ := exists_perm_set hfirst.1 (f r).name.text
      have hmem := (List.mem_cons.mp (hset.mem_iff.mp hnew.mem)).resolve_left (Ne.symm hx)
      have hcount := List.count_pos_iff.mpr hmem
      rw [hold.count_eq,List.count_cons_self]
      exact .inr (.inr ⟨rfl,Nat.succ_lt_succ hcount⟩)
    · by_cases hny : n = (f r).name.text
      · subst hny
        rcases (firstAt_set_self_iff hfirst.lt).mp hnew with ⟨-,hold⟩ | ⟨heq,-⟩
        · exact .inl ⟨hnx,hcopy hold hij hgj⟩
        · exact absurd heq.symm hij
      · have hat : t.names[i]? ≠ some n := by
          rw [hfirst.1]
          exact fun h => hnx (Option.some_inj.mp h).symm
        exact .inl ⟨hnx,hcopy ((firstAt_set_of_ne hny hat).mp hnew) hij hgj⟩

end table

variable {a a' : LinkAgent}

/-- What is ready after a step was ready before, and the row is as validated as it was. -/
theorem GateKept.of (h : GateKept a)
    (hrecord : ∀ g', a'.record = some g' → g'.Ready → ∃ g, a.record = some g ∧ g.Ready)
    (hrow : RowValidated a → RowValidated a') : GateKept a' := by
  intro g' hg' hready'
  obtain ⟨g,hg,hready⟩ := hrecord g' hg' hready'
  exact hrow (h g hg hready)

/-- What holds of some row still does, if the row that is written keeps it. -/
theorem exists_mem_modifyRow {P : EthRow → Prop} {ins : Nat} {f : EthRow → EthRow}
    {rows : List EthRow}
    (hf : ∀ r ∈ rows.find? fun r => r.ulInstanceNumber = ins, P r → P (f r))
    (h : ∃ r ∈ rows, P r) : ∃ r ∈ modifyRow ins f rows, P r := by
  induction rows with
  | nil => exact h
  | cons x rows ih =>
    rw [List.find?_cons] at hf
    rw [modifyRow]
    obtain ⟨r,hr,hP⟩ := h
    by_cases hx : x.ulInstanceNumber = ins
    · rw [if_pos hx]
      simp only [hx,decide_true,Option.mem_some_iff,forall_eq'] at hf
      rcases List.mem_cons.mp hr with rfl | hr
      · exact ⟨f r,List.mem_cons_self,hf hP⟩
      · exact ⟨r,List.mem_cons_of_mem _ hr,hP⟩
    · rw [if_neg hx]
      simp only [hx,decide_false] at hf
      rcases List.mem_cons.mp hr with rfl | hr
      · exact ⟨r,List.mem_cons_self,hP⟩
      · obtain ⟨r',hr',hP'⟩ := ih hf ⟨r,hr,hP⟩
        exact ⟨r',List.mem_cons_of_mem _ hr',hP'⟩

theorem GateKept.modifyRow (h : GateKept a) {ins : Nat} {f : EthRow → EthRow}
    (hf : ∀ r, (f r).name = r.name ∧ (f r).wanValidated = r.wanValidated) :
    GateKept (a.modifyRow ins f) :=
  h.of (fun g hg hready => ⟨g,hg,hready⟩) (exists_mem_modifyRow fun r _ hr =>
    ⟨(hf r).1.symm ▸ hr.1,(hf r).2.trans hr.2⟩)

theorem GateKept.modifyRecord (h : GateKept a) {i : Nat} {f : PortRecord → PortRecord}
    (hf : ∀ r, (f r).name = r.name)
    (hready : ∀ own, a.control.pstInfo = some own →
      cosaDmlEthPortGetIndexFromIfName a.ethernet.ports (some own.text) = some i →
        ∀ g, a.record = some g → (f g).Ready → g.Ready ∨ RowValidated a) :
    GateKept (a.setPorts (a.ethernet.ports.modifyRecord i f)) := by
  intro g' hg' hg'ready
  cases hown : a.control.pstInfo with
  | none =>
    simp [LinkAgent.record,LinkAgent.setPorts,hown,
      cosaDmlEthPortGetCopyOfGlobalInfoForGivenIfName,cosaDmlEthPortGetIndexFromIfName] at hg'
  | some own =>
    have hrec : a.record = cosaDmlEthPortGetCopyOfGlobalInfoForGivenIfName a.ethernet.ports
        (some own.text) := by
      rw [LinkAgent.record,hown,Option.map_some]
    simp only [LinkAgent.record,LinkAgent.setPorts,hown,Option.map_some] at hg'
    have hkept : RowValidated a := by
      rcases copy_modifyRecord hf hg' with hold | ⟨hi,g,hg,rfl⟩
      · exact h g' (hrec.trans hold) hg'ready
      · exact (hready own hown hi g (hrec.trans hg) hg'ready).elim (h g (hrec.trans hg)) id
    exact hkept

theorem GateKept.setWanStatus (h : GateKept a) (ifname : Option Text) (wanStatus : WanStatus) :
    GateKept (a.setPorts (cosaDmlEthPortSetWanStatus a.ethernet.ports ifname wanStatus).2) := by
  unfold cosaDmlEthPortSetWanStatus
  split
  · exact h
  · exact h.modifyRecord (fun _ => rfl) fun _ _ _ _ _ hready => .inl hready

theorem GateKept.setLowerLayers (h : GateKept a) (p : Platform)
    (ifname newLowerLayers : Option Text) :
    GateKept (a.setPorts
      (cosaDmlEthPortSetLowerLayers p a.ethernet.ports ifname newLowerLayers).2) := by
  rcases setLowerLayers_table p a.ethernet.ports ifname newLowerLayers with heq | ⟨i,l,heq⟩
  · rw [heq]
    exact h
  · rw [heq]
    exact h.modifyRecord (fun _ => rfl) fun _ _ _ _ _ hready => .inl hready

/-- A link that is reported up makes the machine's port ready only with its row. -/
theorem GateKept.linkStatusCallback (h : GateKept a) {ifname state : Option Text}
    (hc : ∀ x ∈ ifname, ∀ s ∈ state, (s.take 2).map Char.toLower = ['u','p'] →
      RisesValidated a x) :
    GateKept (a.setPorts (cosaDmlEthPortLinkStatusCallback a.ethernet.ports ifname state)) := by
  unfold cosaDmlEthPortLinkStatusCallback
  cases state with
  | none => exact h
  | some state =>
    cases ifname with
    | none => exact h
    | some x =>
      cases hi : cosaDmlEthPortGetIndexFromIfName a.ethernet.ports (some x) with
      | none =>
        exact h
      | some i =>
        refine h.modifyRecord (fun _ => rfl) fun own hown hindex g hg hready => ?_
        have hup : (state.take 2).map Char.toLower = ['u','p'] := by
          by_contra hdown
          exact LinkStatus.noConfusion ((if_neg hdown).symm.trans hready.2)
        have howns : a.Owns x := by
          rw [LinkAgent.Owns,hown,Option.map_some,name_of_index hindex hi]
        exact .inr (hc x rfl state rfl hup howns g hg hready.1)

theorem GateKept.triggerLinkStatus (h : GateKept a) (p : Platform) {x : Text} {status : Bool}
    (hc : status = true → ∀ i ∈ cosaDmlEthPortGetIndexFromIfName a.ethernet.ports (some x),
      p.totalNumberOfInternalInterfaces ≤ i → RisesValidated a x) :
    GateKept (a.setPorts
      (cosaDmlTriggerExternalEthPortLinkStatus p a.ethernet.ports (some x) status)) := by
  unfold cosaDmlTriggerExternalEthPortLinkStatus
  cases hi : cosaDmlEthPortGetIndexFromIfName a.ethernet.ports (some x) with
  | none => exact h
  | some i =>
    dsimp only
    split
    · exact h
    · next hexternal =>
      refine h.linkStatusCallback fun y hy s hs hup => ?_
      obtain rfl := Option.some_inj.mp hy
      obtain rfl := Option.some_inj.mp hs
      cases status with
      | true => exact hc rfl i hi (Nat.not_lt.mp hexternal)
      | false => exact absurd hup (by decide)

theorem startStateMachine_pstInfo (c : LinkControl) (name : Buf 64) (start : StartAnswers) :
    (cosaEthManagerStartStateMachine c name start).pstInfo =
      if start.allocated then some name else none := by
  unfold cosaEthManagerStartStateMachine
  split
  · dsimp only
    split
    · rfl
    · split <;> rfl
  · rfl

/-- Upstream TRUE starts the machine for the port, Upstream FALSE leaves none ready. -/
theorem mem_upstreamRequest {t : PortTable} {ifname : Option Text} {record : PortRecord}
    (hcopy : cosaDmlEthPortGetCopyOfGlobalInfoForGivenIfName t ifname = some record)
    (hne : record.upstream ≠ true) (start : StartAnswers) :
    (Buf.store record.name.text,start) ∈ upstreamRequest t ifname true start := by
  simp [upstreamRequest,hcopy,hne]

theorem linkStatus_of_upstream {t : PortTable} {i : Nat} {x : Text} {g : PortRecord}
    (hg : cosaDmlEthPortGetCopyOfGlobalInfoForGivenIfName
      (t.modifyRecord i fun r => { r with upstream := true }) (some x) = some g) :
    ∃ g', cosaDmlEthPortGetCopyOfGlobalInfoForGivenIfName t (some x) = some g' ∧
      g'.linkStatus = g.linkStatus := by
  have hnames : ∀ r : PortRecord, { r with upstream := true }.name = r.name := fun _ => rfl
  rcases copy_modifyRecord hnames hg with hold | ⟨-,g',hg',rfl⟩
  · exact ⟨g,hold,rfl⟩
  · exact ⟨g',hg',rfl⟩

theorem GateKept.setUpstream (h : GateKept a) {ifname : Option Text} {upstream : Bool}
    {start : StartAnswers}
    (hc : ∀ request ∈ upstreamRequest a.ethernet.ports ifname upstream start,
      request.2.allocated = true →
        ∀ g ∈ cosaDmlEthPortGetCopyOfGlobalInfoForGivenIfName a.ethernet.ports
          (some request.1.text), g.linkStatus = .up →
            ∃ r ∈ a.ethernet.qEthList, r.name = request.1 ∧ r.wanValidated = true) :
    GateKept (cosaDmlEthPortSetUpstream a ifname upstream start).2 := by
  unfold cosaDmlEthPortSetUpstream
  cases hi : cosaDmlEthPortGetIndexFromIfName a.ethernet.ports ifname with
  | none => exact h
  | some i =>
    cases hr : a.ethernet.ports.records[i]? with
    | none => simpa only [hr] using h
    | some record =>
      simp only [hr]
      by_cases hsame : record.upstream = upstream
      · rw [if_pos hsame]
        exact h
      · rw [if_neg hsame]
        cases upstream with
        | false =>
          exact h.modifyRecord (fun _ => rfl) fun _ _ _ _ _ hready => absurd hready.1 (by simp)
        | true =>
          have hcopy : cosaDmlEthPortGetCopyOfGlobalInfoForGivenIfName a.ethernet.ports ifname =
              some record := by
            rw [cosaDmlEthPortGetCopyOfGlobalInfoForGivenIfName,hi,Option.bind_some,hr]
          have hstart := hc _ (mem_upstreamRequest hcopy hsame start)
          have hinfo := startStateMachine_pstInfo a.control (Buf.store record.name.text) start
          intro g hg hready
          simp only [if_true,LinkAgent.record,LinkAgent.setPorts,hinfo] at hg
          cases halloc : start.allocated with
          | false =>
            simp [halloc,cosaDmlEthPortGetCopyOfGlobalInfoForGivenIfName,
              cosaDmlEthPortGetIndexFromIfName] at hg
          | true =>
            simp only [halloc,if_true,Option.map_some] at hg
            obtain ⟨g',hg',hlink⟩ := linkStatus_of_upstream hg
            obtain ⟨r,hr,hname,hval⟩ := hstart halloc g' hg' (hlink.trans hready.2)
            refine ⟨r,hr,?_,hval⟩
            rw [hname]
            exact hinfo.trans (if_pos halloc)

theorem GateKept.setBool (h : GateKept a) {p : Platform} {ins : Nat} {paramName : BoolParam}
    {bValue : Bool} {start : StartAnswers}
    (hc : KeepsGate p a (.setBool ins paramName bValue start)) :
    GateKept (ethRdkInterfaceSetParamBoolValue p a ins paramName bValue start) := by
  unfold ethRdkInterfaceSetParamBoolValue
  cases hrow : a.ethernet.row ins with
  | none => exact h
  | some row =>
    cases paramName with
    | upstream =>
      dsimp only
      split
      · exact h
      · next hchange =>
        refine GateKept.setUpstream (a := a.modifyRow ins fun r => { r with upstream := bValue })
          (h.modifyRow fun _ => ⟨rfl,rfl⟩) fun request hmem halloc g hg hup => ?_
        have hstart : request ∈ startRequest a (.setBool ins .upstream bValue start) := by
          have hports : upstreamRequest a.ethernet.ports (some row.name.text) bValue start =
              some request := hmem
          simpa [startRequest,hrow,hchange] using hports
        exact exists_mem_modifyRow (fun _ _ hr => hr) (hc request hstart halloc g hg hup)
    | enable =>
      dsimp only
      split
      · exact h
      · next hchange =>
        refine (h.triggerLinkStatus p fun hb i hi hexternal => ?_).modifyRow fun _ => ⟨rfl,rfl⟩
        subst hb
        exact hc rfl row hrow (by simpa using Ne.symm hchange) i hi hexternal
    | wanValidated =>
      dsimp only
      split
      · exact h
      · next hchange =>
        have hfind : ∀ r ∈ a.ethernet.qEthList.find? (fun r => r.ulInstanceNumber = ins),
            r = row := fun r hr => Option.some_inj.mp (hr.symm.trans hrow)
        cases bValue with
        | true =>
          exact h.of (fun g hg hready => ⟨g,hg,hready⟩)
            (exists_mem_modifyRow fun _ _ hr => ⟨hr.1,rfl⟩)
        | false =>
          by_cases howns : a.Owns row.name.text
          · have hval : row.wanValidated = true := by simpa using Ne.symm hchange
            intro g hg hready
            exact absurd hready (hc rfl row hrow hval howns g hg)
          · refine h.of (fun g hg hready => ⟨g,hg,hready⟩)
              (exists_mem_modifyRow fun r hr hown => ?_)
            obtain rfl := hfind r hr
            exact absurd (by rw [LinkAgent.Owns,hown.1,Option.map_some]) howns

/-- A new name of a record moves the machine's port, or another one to its name. -/
theorem GateKept.rename (h : GateKept a) {p : Platform} {ins i : Nat} {pString : Text}
    (hc : KeepsGate p a (.setString ins .name pString)) {row : EthRow}
    (hrow : a.ethernet.row ins = some row) (hnot : pString ∉ a.ethernet.ports.names)
    (hi : cosaDmlEthPortGetIndexFromIfName a.ethernet.ports (some row.name.text) = some i)
    (hsame : pString.take 63 ≠ row.name.text) {rows : List EthRow}
    (hrows : rows = if pString.length ≤ 63 then
      EthAgent.modifyRow ins (fun r => { r with name := Buf.store pString }) a.ethernet.qEthList
      else a.ethernet.qEthList) :
    GateKept { a with
      ethernet := { a.ethernet with
        ports := a.ethernet.ports.modifyRecord i fun r =>
          { r with name := r.name.strncpy pString }
        qEthList := rows } } := by
  obtain ⟨hold,hnew⟩ := hc row hrow hnot hsame
  obtain ⟨r,hr,hname⟩ := record_of_index hi
  have hmoved : (r.name.strncpy pString).text ≠ row.name.text := fun heq =>
    hsame (Chars.front_of_text heq row.name.fits)
  intro g hg hready
  cases hown : a.control.pstInfo with
  | none =>
    simp [LinkAgent.record,hown,cosaDmlEthPortGetCopyOfGlobalInfoForGivenIfName,
      cosaDmlEthPortGetIndexFromIfName] at hg
  | some own =>
    simp only [LinkAgent.record,hown,Option.map_some] at hg
    rcases copy_rename hi hr hmoved hg with ⟨hne,hg⟩ | ⟨hto,rfl⟩ | ⟨hfrom,htwice⟩
    · have hval := h g (by rw [LinkAgent.record,hown,Option.map_some,hg]) hready
      rw [RowValidated,hrows]
      split
      · refine exists_mem_modifyRow (fun r' hr' hown' => ?_) hval
        obtain rfl : r' = row := Option.some_inj.mp (hr'.symm.trans hrow)
        rw [hown,Option.some_inj] at hown'
        exact absurd (congrArg Buf.text hown'.1) hne
      · exact hval
    · have hto : pString.take 63 = own.text := Chars.front_of_text hto.symm own.fits
      rcases hnew (by rw [LinkAgent.Owns,hown,Option.map_some,hto]) with ⟨hval,hlen⟩ | hidle
      · obtain ⟨l,rest,-,-,hmod,-⟩ := row_split hrow
        refine ⟨{ row with name := Buf.store pString },?_,?_,hval⟩
        · simp [hrows,hlen,hmod]
        · exact hown.trans (congrArg some (Buf.ext_text hto.symm))
      · exact absurd hready (hidle r (by rw [getCopy_of_index hi,hr]; rfl))
    · have howns : a.Owns row.name.text := by rw [LinkAgent.Owns,hown,Option.map_some,hfrom]
      exact absurd (hold howns) (Nat.not_le.mpr htwice)

theorem GateKept.setName (h : GateKept a) {p : Platform} {ins : Nat} {pString : Text}
    (hc : KeepsGate p a (.setString ins .name pString)) :
    GateKept { a with
      ethernet := (ethRdkInterfaceSetParamStringValue p a.ethernet ins .name pString).2 } := by
  unfold ethRdkInterfaceSetParamStringValue
  cases hrow : a.ethernet.row ins with
  | none => exact h
  | some row =>
    rcases setName_result a.ethernet.ports row.name.text pString with heq | ⟨i,hi,hnot,heq⟩
    · simp only [heq]
      exact h
    · have hfirst := (getIndexFromIfName_eq_some_iff _ _ _).mp hi
      obtain ⟨r,hr,hname⟩ := record_of_index hi
      simp only [heq,if_true]
      by_cases hsame : pString.take 63 = row.name.text
      · -- the first 63 characters are the name that is there
        have hlong : ¬pString.length ≤ 63 := fun hle => by
          rw [List.take_of_length_le hle] at hsame
          exact hnot (hsame ▸ hfirst.mem)
        have hself := modifyRecord_eq_self
          (f := fun r => { r with name := r.name.strncpy pString }) hr
          (by rw [Chars.strncpy_of_take (hsame.trans hname.symm)])
        simp only [if_neg hlong,hself]
        exact h
      · have hrename := h.rename hc hrow hnot hi hsame rfl
        split
        · next hlen => simpa only [if_pos hlen] using hrename
        · next hlen => simpa only [if_neg hlen] using hrename

theorem GateKept.setString (h : GateKept a) {p : Platform} {ins : Nat} {paramName : StringParam}
    {pString : Text} (hc : KeepsGate p a (.setString ins paramName pString)) :
    GateKept { a with
      ethernet := (ethRdkInterfaceSetParamStringValue p a.ethernet ins paramName pString).2 } := by
  cases paramName with
  | name => exact h.setName hc
  | lowerLayers =>
    unfold ethRdkInterfaceSetParamStringValue
    cases hrow : a.ethernet.row ins with
    | none => exact h
    | some row =>
      have hports := h.setLowerLayers p (some row.name.text) (some pString)
      dsimp only
      split
      · split
        · exact hports.modifyRow fun _ => ⟨rfl,rfl⟩
        · exact hports
      · exact h

theorem GateKept.getUlong (h : GateKept a) (ins : Nat) (paramName : UlongParam) :
    GateKept (ethRdkInterfaceGetParamUlongValue a ins paramName) := by
  unfold ethRdkInterfaceGetParamUlongValue
  split
  · exact h
  · split
    · exact h
    · cases paramName with
      | status => exact h.modifyRow fun _ => ⟨rfl,rfl⟩
      | wanStatus => exact h.modifyRow fun _ => ⟨rfl,rfl⟩

theorem GateKept.applyCalls (h : GateKept a) (calls : List LinkCall) :
    GateKept (a.setPorts (calls.foldl applyCall a.ethernet.ports)) := by
  induction calls generalizing a with
  | nil => exact h
  | cons c calls ih =>
    have hcall : GateKept (a.setPorts (applyCall a.ethernet.ports c)) := by
      cases c with
      | setPortWanStatus ifname wanStatus => exact h.setWanStatus (some ifname) wanStatus
      | _ => exact h
    exact ih hcall

theorem GateKept.machineStep (h : GateKept a) (reads : Bool) (answers : MachineAnswers) :
    GateKept (machineStep reads a answers).1 := by
  unfold EthAgent.machineStep
  split
  · exact h
  · exact h
  · split <;> exact h
  · exact h.applyCalls _

theorem GateKept.step (h : GateKept a) {p : Platform} (reads : Bool) {ev : LinkEvent}
    (hc : KeepsGate p a ev) : GateKept (silent (agentStep p reads) a ev) := by
  cases ev with
  | setUpstream ifname upstream start => exact h.setUpstream hc
  | linkStatus ifname state => exact h.linkStatusCallback hc
  | setBool ins paramName bValue start => exact h.setBool hc
  | setWanStatus ins uValue =>
    simp only [silent,agentStep,ethRdkInterfaceSetParamUlongValue]
    split
    · exact h
    · split
      · exact h
      · exact GateKept.setWanStatus (a := a.modifyRow ins fun r => { r with wanStatus := uValue })
          (h.modifyRow fun _ => ⟨rfl,rfl⟩) _ uValue
  | setString ins paramName pString => exact h.setString hc
  | getUlong ins paramName => exact h.getUlong ins paramName
  | machine answers => exact h.machineStep reads answers

theorem GateKept.findsValidatedLink (h : GateKept a) (ev : LinkEvent) :
    FindsValidatedLink a ev := by
  cases ev with
  | machine answers =>
    intro _ hmove
    obtain ⟨-,g,hg,hup,hlink,-⟩ := linkMove_wanLinkFound_iff.mp hmove
    exact h g hg ⟨hup,hlink⟩
  | _ => trivial

instance (a : LinkAgent) : (ev : LinkEvent) → Decidable (FindsValidatedLink a ev)
  | .machine _ => inferInstanceAs (Decidable (_ → _ → _))
  | .setUpstream .. => .isTrue trivial
  | .linkStatus .. => .isTrue trivial
  | .setBool .. => .isTrue trivial
  | .setWanStatus .. => .isTrue trivial
  | .setString .. => .isTrue trivial
  | .getUlong .. => .isTrue trivial

instance (a : LinkAgent) (ev : LinkEvent) : Decidable (StartsValidated a ev) :=
  inferInstanceAs (Decidable (∀ _ ∈ _, _))

instance (a : LinkAgent) (x : Text) : Decidable (RisesValidated a x) :=
  inferInstanceAs (Decidable (_ → ∀ _ ∈ _, _))

instance (p : Platform) (a : LinkAgent) : (ev : LinkEvent) → Decidable (KeepsGate p a ev)
  | .setUpstream .. => inferInstanceAs (Decidable (StartsValidated _ _))
  | .setBool _ .upstream _ _ => inferInstanceAs (Decidable (StartsValidated _ _))
  | .linkStatus .. => inferInstanceAs (Decidable (∀ _ ∈ _, ∀ _ ∈ _, _))
  | .setBool _ .enable _ _ => inferInstanceAs (Decidable (_ → ∀ _ ∈ _, _))
  | .setBool _ .wanValidated _ _ => inferInstanceAs (Decidable (_ → ∀ _ ∈ _, _))
  | .setString _ .name _ => inferInstanceAs (Decidable (∀ _ ∈ _, _))
  | .setString _ .lowerLayers _ => .isTrue trivial
  | .setWanStatus .. => .isTrue trivial
  | .getUlong .. => .isTrue trivial
  | .machine _ => .isTrue trivial

end EthAgent
