import EthAgent.LinkAgent
import EthAgent.Lib.Interleaving

/-!
The operations on `gpstEthGInfo` as their critical sections. An operation that
is given a name looks its index up in one section under `gmEthGInfo_mutex` and
uses it in another; deletions and renames have their own sections in between.
-/

set_option autoImplicit false

namespace EthAgent
open CString Packed Runs Interleaving

inductive NamedOp where
  | setWanStatus (wanStatus : WanStatus)
  | linkStatusCallback (linkStatus : LinkStatus)
  | getCopyOfGlobalInfo
  deriving DecidableEq

/-- The calls. `deleteTable` is `CosDmlEthPortUpdateGlobalInfo` of `ETH_DEL_TABLE`. -/
inductive PortCall where
  | setWanStatus (ifname : Option Text) (wanStatus : WanStatus)
  | linkStatusCallback (ifname state : Option Text)
  | getCopyOfGlobalInfo (ifname : Option Text)
  | deleteTable (ifname : Option Text)
  | setName (ifname newIfname : Option Text)

inductive PortPoint where
  | access (op : NamedOp) (ifname : Text) (ifIndex : Nat)
  | deleteCount (ifIndex : Nat)
  | deleteRecord (ifIndex iTotal : Nat) (isLast : Bool)
  | renameFind (ifname newIfname : Text)
  | renameStore (ifIndex : Nat) (newIfname : Text)
  deriving DecidableEq

/-- `accessed`: an operation for `ifname` has used its index, where it met `record`,
or no record. `outside`: a section has read or written behind the records. The others are
the statuses returned. -/
inductive PortEvent where
  | accessed (ifname : Text) (record : Option PortRecord)
  | outside
  | success
  | failure
  deriving DecidableEq

abbrev PortOutcome := Outcome PortTable PortPoint PortEvent

def failed (t : PortTable) : PortOutcome := ⟨t,[],[.failure]⟩

/-- What the section does after it has left the table is not defined: it goes no further. -/
def leftTable (t : PortTable) : PortOutcome := ⟨t,[],[.outside]⟩

def lookupSection (t : PortTable) (ifname : Text) (found : Nat → PortOutcome)
    (notFound : PortOutcome) : PortOutcome :=
  if t.Leaves ifname then leftTable t
  else
    match cosaDmlEthPortGetIndexFromIfName t (some ifname) with
    | some ifIndex => found ifIndex
    | none => notFound

/-- The first section of an operation, which looks the index up. -/
def namedLookup (t : PortTable) (op : NamedOp) (ifname : Option Text) : PortOutcome :=
  match ifname with
  | none => failed t
  | some ifname =>
    lookupSection t ifname (fun ifIndex => ⟨t,[.access op ifname ifIndex],[]⟩) (failed t)

/-- The second section. `CosaDmlEthPortGetCopyOfGlobalInfoForGivenIfName` only reads. -/
def namedAccess (t : PortTable) (op : NamedOp) (ifname : Text) (ifIndex : Nat) : PortOutcome :=
  ⟨match op with
    | .setWanStatus wanStatus => t.modifyRecord ifIndex fun r => { r with wanStatus := wanStatus }
    | .linkStatusCallback linkStatus =>
      t.modifyRecord ifIndex fun r => { r with linkStatus := linkStatus }
    | .getCopyOfGlobalInfo => t,
    [],[.accessed ifname t.records[ifIndex]?,.success]⟩

def linkStatusOfState (state : Text) : LinkStatus :=
  if (state.take 2).map Char.toLower = ['u','p'] then .up else .down

/-- `ulTotalNoofEthInterfaces--`, an unsigned counter. -/
def decrement (p : Platform) (n : Nat) : Nat := (n+(2^p.ulongBits-1))%2^p.ulongBits

theorem decrement_eq {p : Platform} {n : Nat} (h0 : 0 < n) (h : n < 2^p.ulongBits) :
    decrement p n = n-1 := by
  have heq : n+(2^p.ulongBits-1) = (n-1)+2^p.ulongBits := by omega
  rw [decrement,heq,Nat.add_mod_right,Nat.mod_eq_of_lt (by omega)]

def portEnter (p : Platform) (t : PortTable) : PortCall → PortOutcome
  | .setWanStatus ifname wanStatus => namedLookup t (.setWanStatus wanStatus) ifname
  | .linkStatusCallback ifname state =>
    match state with
    | none => failed t
    | some state => namedLookup t (.linkStatusCallback (linkStatusOfState state)) ifname
  | .getCopyOfGlobalInfo ifname => namedLookup t .getCopyOfGlobalInfo ifname
  | .deleteTable ifname =>
    match ifname with
    | none => failed t
    | some ifname =>
      lookupSection t ifname
        (fun ifIndex =>
          if ifIndex < p.totalNumberOfInternalInterfaces then failed t
          else ⟨t,[.deleteCount ifIndex],[]⟩)
        (failed t)
  | .setName ifname newIfname =>
    match ifname,newIfname with
    | some ifname,some newIfname =>
      lookupSection t newIfname (fun _ => failed t) ⟨t,[.renameFind ifname newIfname],[]⟩
    | _,_ => failed t

def shrink (t : PortTable) (recs : List PortRecord) (reallocated : Bool) : PortOutcome :=
  if reallocated then
    ⟨⟨some recs,t.gTotal-1,t.ulTotalNoofEthInterfaces⟩,[],[.success]⟩
  else failed { t with gpstEthGInfo := none }

/-- The section of a deletion under the mutex, with the counter read before it: in the
middle it reads the record at `iTotal`, and writes it to `ifIndex` of what is left. -/
def deleteRecord (p : Platform) (t : PortTable) (ifIndex iTotal : Nat)
    (isLast reallocated : Bool) : PortOutcome :=
  let recs := reallocate p t.gpstEthGInfo iTotal
  if isLast then shrink t recs reallocated
  else
    match t.records[iTotal]? with
    | none => leftTable t
    | some last =>
      if reallocated = true ∧ iTotal ≤ ifIndex then leftTable t
      else
        shrink t (recs.modify ifIndex (copyRecord (copyRecord last p.stackMemory))) reallocated

/-- The section at a point; the answer says whether a reallocation succeeds. The
counter of a deletion is read and written outside the mutex. -/
def portResume (p : Platform) (t : PortTable) (point : PortPoint) (reallocated : Bool) :
    PortOutcome :=
  match point with
  | .access op ifname ifIndex => namedAccess t op ifname ifIndex
  | .deleteCount ifIndex =>
    let iTotal := decrement p t.ulTotalNoofEthInterfaces
    ⟨{ t with ulTotalNoofEthInterfaces := iTotal },
      [.deleteRecord ifIndex iTotal (ifIndex+1 = t.ulTotalNoofEthInterfaces)],[]⟩
  | .deleteRecord ifIndex iTotal isLast => deleteRecord p t ifIndex iTotal isLast reallocated
  | .renameFind ifname newIfname =>
    lookupSection t ifname (fun ifIndex => ⟨t,[.renameStore ifIndex newIfname],[]⟩) (failed t)
  | .renameStore ifIndex newIfname =>
    if t.gTotal ≤ ifIndex then failed t
    else if t.records.length ≤ ifIndex then leftTable t
    else
      ⟨t.modifyRecord ifIndex fun r => { r with name := r.name.strncpy newIfname },[],[.success]⟩

def portProgram (p : Platform) : Program PortTable PortPoint PortCall Bool PortEvent where
  enter := portEnter p
  resume := portResume p

abbrev PortConf := Conf PortTable PortPoint
abbrev PortStep := Event PortCall Bool

/-- Every access so far met a record with the name that was asked for. -/
def NamedOnly (q : PortConf × List PortEvent) : Prop :=
  ∀ ifname record, .accessed ifname record ∈ q.2 → ∃ r, record = some r ∧ r.name.text = ifname

/-- What an operation relies on between its two sections: the record at its index
has the name that it was asked for. -/
def HasIndex (t : PortTable) : PortPoint → Prop
  | .access _ ifname i => ∃ r, t.records[i]? = some r ∧ r.name.text = ifname
  | _ => True

/-- No operation between its two sections loses its record to the section of
another thread. -/
def Undisturbed (p : Platform) (q : PortConf × List PortEvent) (ev : PortStep) : Prop :=
  ∀ o, outcome (portProgram p) q.1 ev = some o →
    ∀ point ∈ rest q.1 ev, HasIndex q.1.shared point → HasIndex o.shared point

/-- Whatever section comes next, every access has met its record. -/
def NamedNext (p : Platform) (q : PortConf × List PortEvent) : Prop :=
  ∀ ev, NamedOnly (stepLog (portProgram p) q ev)

theorem lookupSection_cases {P : PortOutcome → Prop} {t : PortTable} {ifname : Text}
    {found : Nat → PortOutcome} {notFound : PortOutcome} (hleft : P (leftTable t))
    (hfound : ∀ i, cosaDmlEthPortGetIndexFromIfName t (some ifname) = some i → P (found i))
    (hnot : P notFound) : P (lookupSection t ifname found notFound) := by
  unfold lookupSection
  split
  · exact hleft
  · cases hi : cosaDmlEthPortGetIndexFromIfName t (some ifname) with
    | none => exact hnot
    | some i => exact hfound i hi

/-- The points that a section leads to find their records, and it accesses none itself. -/
structure LooksUp (o : PortOutcome) : Prop where
  threads : ∀ point ∈ o.threads, HasIndex o.shared point
  events : ∀ x record, .accessed x record ∉ o.events

theorem looksUp_failed (t : PortTable) : LooksUp (failed t) :=
  ⟨fun _ h => absurd h List.not_mem_nil,by simp [failed]⟩

theorem looksUp_leftTable (t : PortTable) : LooksUp (leftTable t) :=
  ⟨fun _ h => absurd h List.not_mem_nil,by simp [leftTable]⟩

theorem looksUp_point {t : PortTable} {point : PortPoint} (h : HasIndex t point) :
    LooksUp ⟨t,[point],[]⟩ :=
  ⟨List.forall_mem_singleton.mpr h,fun _ _ => List.not_mem_nil⟩

theorem looksUp_namedLookup (t : PortTable) (op : NamedOp) (ifname : Option Text) :
    LooksUp (namedLookup t op ifname) := by
  cases ifname with
  | none => exact looksUp_failed t
  | some ifname =>
    exact lookupSection_cases (looksUp_leftTable t) (fun i hi => looksUp_point (record_of_index hi))
      (looksUp_failed t)

/-- The first section of every call: an index just found is right, and nothing is
accessed yet. -/
theorem portEnter_spec (p : Platform) (t : PortTable) (call : PortCall) :
    LooksUp (portEnter p t call) := by
  cases call with
  | setWanStatus ifname wanStatus => exact looksUp_namedLookup t _ ifname
  | linkStatusCallback ifname state =>
    cases state with
    | none => exact looksUp_failed t
    | some state => exact looksUp_namedLookup t _ ifname
  | getCopyOfGlobalInfo ifname => exact looksUp_namedLookup t _ ifname
  | deleteTable ifname =>
    cases ifname with
    | none => exact looksUp_failed t
    | some ifname =>
      refine lookupSection_cases (looksUp_leftTable t) (fun i _ => ?_) (looksUp_failed t)
      split
      · exact looksUp_failed t
      · exact looksUp_point trivial
  | setName ifname newIfname =>
    cases ifname with
    | none => exact looksUp_failed t
    | some ifname =>
      cases newIfname with
      | none => exact looksUp_failed t
      | some newIfname =>
        exact lookupSection_cases (looksUp_leftTable t) (fun _ _ => looksUp_failed t)
          (looksUp_point trivial)

theorem looksUp_shrink (t : PortTable) (recs : List PortRecord) (reallocated : Bool) :
    LooksUp (shrink t recs reallocated) := by
  unfold shrink
  split
  · exact ⟨fun _ h => absurd h List.not_mem_nil,by simp⟩
  · exact looksUp_failed _

theorem looksUp_deleteRecord (p : Platform) (t : PortTable) (i iTotal : Nat)
    (isLast reallocated : Bool) : LooksUp (deleteRecord p t i iTotal isLast reallocated) := by
  unfold deleteRecord
  dsimp only
  split
  · exact looksUp_shrink _ _ _
  · split
    · exact looksUp_leftTable t
    · split
      · exact looksUp_leftTable t
      · exact looksUp_shrink _ _ _

/-- The later sections look no index up that they keep for an access, and only
those at an access meet a record. -/
theorem portResume_spec (p : Platform) (t : PortTable) (point : PortPoint)
    (reallocated : Bool) :
    (∀ point' ∈ (portResume p t point reallocated).threads,
        HasIndex (portResume p t point reallocated).shared point') ∧
      ∀ x record, .accessed x record ∈ (portResume p t point reallocated).events ↔
        ∃ op i, point = .access op x i ∧ record = t.records[i]? := by
  have hnone : (∀ op x i, point ≠ .access op x i) → LooksUp (portResume p t point reallocated) →
      (∀ point' ∈ (portResume p t point reallocated).threads,
        HasIndex (portResume p t point reallocated).shared point') ∧
      ∀ x record, .accessed x record ∈ (portResume p t point reallocated).events ↔
        ∃ op i, point = .access op x i ∧ record = t.records[i]? := by
    intro hpoint h
    refine ⟨h.threads,fun x record => iff_of_false (h.events x record) ?_⟩
    rintro ⟨op,i,hi,-⟩
    exact hpoint op x i hi
  cases point with
  | access op ifname i =>
    refine ⟨by simp [portResume,namedAccess],fun x record => ?_⟩
    simp only [portResume,namedAccess,List.mem_cons,PortEvent.accessed.injEq,reduceCtorEq,
      List.not_mem_nil,or_false,PortPoint.access.injEq]
    constructor
    · rintro ⟨rfl,rfl⟩
      exact ⟨op,i,⟨rfl,rfl,rfl⟩,rfl⟩
    · rintro ⟨op',i',⟨-,rfl,rfl⟩,rfl⟩
      exact ⟨rfl,rfl⟩
  | deleteCount i => exact hnone (by simp) (looksUp_point trivial)
  | deleteRecord i iTotal isLast => exact hnone (by simp) (looksUp_deleteRecord _ _ _ _ _ _)
  | renameFind ifname newIfname =>
    exact hnone (by simp) (lookupSection_cases (looksUp_leftTable t)
      (fun _ _ => looksUp_point trivial) (looksUp_failed t))
  | renameStore i newIfname =>
    refine hnone (by simp) ?_
    unfold portResume
    dsimp only
    split
    · exact looksUp_failed t
    · split
      · exact looksUp_leftTable t
      · exact ⟨fun _ h => absurd h List.not_mem_nil,by simp⟩

structure Named (q : PortConf × List PortEvent) : Prop where
  accessed : NamedOnly q
  pending : ∀ point ∈ q.1.threads, HasIndex q.1.shared point

theorem Named.accessed_step {p : Platform} {q : PortConf × List PortEvent} (h : Named q)
    (ev : PortStep) : NamedOnly (stepLog (portProgram p) q ev) := by
  intro x record hmem
  cases ho : outcome (portProgram p) q.1 ev with
  | none =>
    rw [stepLog_none ho] at hmem
    exact h.accessed x record hmem
  | some o =>
    rw [stepLog_some ho] at hmem
    rcases List.mem_append.mp hmem with hold | hnew
    · exact h.accessed x record hold
    · cases ev with
      | enter call =>
        obtain rfl := Option.some_inj.mp ho
        exact absurd hnew ((portEnter_spec p q.1.shared call).events x record)
      | resume k reallocated =>
        obtain ⟨point,hpoint,rfl⟩ := Option.map_eq_some_iff.mp ho
        obtain ⟨op,i,rfl,rfl⟩ :=
          ((portResume_spec p q.1.shared point reallocated).2 x record).mp hnew
        exact h.pending _ (List.mem_of_getElem? hpoint)

theorem Named.step {p : Platform} {q : PortConf × List PortEvent} (h : Named q) {ev : PortStep}
    (hc : Undisturbed p q ev) : Named (stepLog (portProgram p) q ev) := by
  refine ⟨h.accessed_step ev,?_⟩
  have hsound : Sound (fun _ => True) HasIndex q.1 := ⟨trivial,h.pending⟩
  refine (hsound.step (m := portProgram p) fun o ho => ⟨trivial,?_,?_⟩).threads
  · cases ev with
    | enter call =>
      obtain rfl := Option.some_inj.mp ho
      exact (portEnter_spec p q.1.shared call).threads
    | resume k reallocated =>
      obtain ⟨point,-,rfl⟩ := Option.map_eq_some_iff.mp ho
      exact (portResume_spec p q.1.shared point reallocated).1
  · exact fun point hpoint => hc o ho point hpoint (h.pending point (mem_of_mem_rest hpoint))

/-- An operation that has lost its record shows it in its next section. -/
theorem NamedNext.hasIndex {p : Platform} {q : PortConf × List PortEvent} (h : NamedNext p q) :
    ∀ point ∈ q.1.threads, HasIndex q.1.shared point := by
  intro point hmem
  cases point with
  | access op ifname i =>
    obtain ⟨k,hk⟩ := List.mem_iff_getElem?.mp hmem
    refine h (.resume k true) ifname q.1.shared.records[i]? ?_
    have ho : outcome (portProgram p) q.1 (.resume k true) =
        some (portResume p q.1.shared (.access op ifname i) true) := by
      simp [outcome,hk,portProgram]
    rw [stepLog_some ho]
    refine List.mem_append_right _ ?_
    exact ((portResume_spec p q.1.shared _ true).2 ifname _).mpr ⟨op,i,rfl,rfl⟩
  | _ => trivial

section InsideTheTable

/-- No section so far has left the table. -/
def InsideOnly (q : PortConf × List PortEvent) : Prop := .outside ∉ q.2

theorem InsideOnly.append {q : PortConf × List PortEvent} (h : InsideOnly q) (c : PortConf)
    {events : List PortEvent} (he : .outside ∉ events) : InsideOnly (c,q.2 ++ events) :=
  fun hmem => (List.mem_append.mp hmem).elim h he

/-- A deletion that has counted the ports, and not yet taken its record away. -/
def PortPoint.removing : PortPoint → Bool
  | .deleteRecord _ _ _ => true
  | _ => false

/-- A rename that has found its record, and not yet written to it. -/
def PortPoint.storing : PortPoint → Bool
  | .renameStore _ _ => true
  | _ => false

/-- A deletion counts the ports while no other is between that and its record, and the
index that it has found is still one of the table; a reallocation fails only while no
rename is about to write. -/
def PortPoint.Apart (t : PortTable) (others : List PortPoint) (reallocated : Bool) :
    PortPoint → Prop
  | .deleteCount ifIndex => ifIndex < t.records.length ∧ ∀ other ∈ others, other.removing = false
  | .deleteRecord _ _ _ => reallocated = true ∨ ∀ other ∈ others, other.storing = false
  | _ => True

def DeletionsApart (q : PortConf × List PortEvent) : PortStep → Prop
  | .enter _ => True
  | .resume k reallocated =>
    ∀ point ∈ q.1.threads[k]?,
      point.Apart q.1.shared (rest q.1 (.resume k reallocated : PortStep)) reallocated

/-- What a deletion or a rename relies on between its sections. -/
def Placed (t : PortTable) : PortPoint → Prop
  | .deleteRecord ifIndex iTotal isLast =>
    t.records.length = iTotal+1 ∧ (isLast = false → ifIndex < iTotal)
  | .renameStore _ _ => t.gpstEthGInfo ≠ none
  | _ => True

/-- `gTotal` counts the records; `ulTotalNoofEthInterfaces` is behind by the deletion that
has still to take its record away, if there is one. -/
structure Tallied (p : Platform) (q : PortConf × List PortEvent) : Prop where
  inside : InsideOnly q
  total : ∀ recs, q.1.shared.gpstEthGInfo = some recs → q.1.shared.gTotal = recs.length ∧
    q.1.shared.ulTotalNoofEthInterfaces+q.1.threads.countP PortPoint.removing = recs.length
  fits : ∀ recs, q.1.shared.gpstEthGInfo = some recs → recs.length < 2^p.ulongBits
  one : q.1.threads.countP PortPoint.removing ≤ 1
  placed : ∀ point ∈ q.1.threads, Placed q.1.shared point

theorem Tallied.stays {p : Platform} {q : PortConf × List PortEvent} (h : Tallied p q)
    (ifname : Text) :
    ¬q.1.shared.Leaves ifname := by
  rintro ⟨hsome,hlt,-⟩
  obtain ⟨recs,hrecs⟩ := Option.isSome_iff_exists.mp hsome
  rw [PortTable.records,hrecs,Option.getD_some,(h.total recs hrecs).1] at hlt
  exact Nat.lt_irrefl _ hlt

/-- As many records, and the same counts. -/
structure SameSize (t t' : PortTable) : Prop where
  length : t'.gpstEthGInfo.map List.length = t.gpstEthGInfo.map List.length
  gTotal : t'.gTotal = t.gTotal
  ulTotal : t'.ulTotalNoofEthInterfaces = t.ulTotalNoofEthInterfaces

theorem sameSize_refl (t : PortTable) : SameSize t t := ⟨rfl,rfl,rfl⟩

theorem sameSize_modifyRecord (t : PortTable) (i : Nat) (f : PortRecord → PortRecord) :
    SameSize t (t.modifyRecord i f) := by
  refine ⟨?_,rfl,rfl⟩
  cases hinfo : t.gpstEthGInfo <;> simp [PortTable.modifyRecord,hinfo]

theorem PortTable.length_records (t : PortTable) :
    t.records.length = (t.gpstEthGInfo.map List.length).getD 0 := by
  unfold records
  cases t.gpstEthGInfo <;> rfl

theorem SameSize.placed {t t' : PortTable} (h : SameSize t t') {point : PortPoint}
    (hp : Placed t point) : Placed t' point := by
  have hlen : t'.records.length = t.records.length := by
    rw [t'.length_records,t.length_records,h.length]
  cases point with
  | deleteRecord ifIndex iTotal isLast => exact ⟨hlen.trans hp.1,hp.2⟩
  | renameStore ifIndex newIfname =>
    intro hnone
    have hmap := h.length
    rw [hnone,Option.map_none,eq_comm,Option.map_eq_none_iff] at hmap
    exact hp hmap
  | _ => trivial

/-- A section that leaves the size of the table and the deletions as they are. -/
structure KeepsSize (t : PortTable) (o : PortOutcome) : Prop where
  size : SameSize t o.shared
  events : .outside ∉ o.events
  threads : o.threads.countP PortPoint.removing = 0
  placed : ∀ point ∈ o.threads, Placed t point

theorem keepsSize_failed (t : PortTable) : KeepsSize t (failed t) :=
  ⟨sameSize_refl t,by simp [failed],rfl,fun _ h => absurd h List.not_mem_nil⟩

theorem keepsSize_modifyRecord (t : PortTable) (i : Nat) (f : PortRecord → PortRecord)
    {events : List PortEvent} (h : .outside ∉ events) :
    KeepsSize t ⟨t.modifyRecord i f,[],events⟩ :=
  ⟨sameSize_modifyRecord t i f,h,rfl,fun _ h => absurd h List.not_mem_nil⟩

theorem keepsSize_point {t : PortTable} {point : PortPoint} (h : point.removing = false)
    (hp : Placed t point) : KeepsSize t ⟨t,[point],[]⟩ :=
  ⟨sameSize_refl t,List.not_mem_nil,by simp [h],List.forall_mem_singleton.mpr hp⟩

theorem keepsSize_lookupSection {t : PortTable} {ifname : Text} {found : Nat → PortOutcome}
    {notFound : PortOutcome} (hstays : ¬t.Leaves ifname)
    (hfound : ∀ i, cosaDmlEthPortGetIndexFromIfName t (some ifname) = some i →
      KeepsSize t (found i))
    (hnot : KeepsSize t notFound) : KeepsSize t (lookupSection t ifname found notFound) := by
  rw [lookupSection,if_neg hstays]
  cases hi : cosaDmlEthPortGetIndexFromIfName t (some ifname) with
  | none => exact hnot
  | some i => exact hfound i hi

theorem gpstEthGInfo_of_index {t : PortTable} {x : Text} {i : Nat}
    (h : cosaDmlEthPortGetIndexFromIfName t (some x) = some i) : t.gpstEthGInfo ≠ none := by
  intro hnone
  simp [cosaDmlEthPortGetIndexFromIfName,hnone] at h

theorem keepsSize_namedLookup {t : PortTable} (hstays : ∀ x, ¬t.Leaves x) (op : NamedOp)
    (ifname : Option Text) : KeepsSize t (namedLookup t op ifname) := by
  cases ifname with
  | none => exact keepsSize_failed t
  | some ifname =>
    exact keepsSize_lookupSection (hstays ifname) (fun _ _ => keepsSize_point rfl trivial)
      (keepsSize_failed t)

theorem keepsSize_portEnter {p : Platform} {t : PortTable} (hstays : ∀ x, ¬t.Leaves x)
    (call : PortCall) : KeepsSize t (portEnter p t call) := by
  cases call with
  | setWanStatus ifname wanStatus => exact keepsSize_namedLookup hstays _ ifname
  | linkStatusCallback ifname state =>
    cases state with
    | none => exact keepsSize_failed t
    | some state => exact keepsSize_namedLookup hstays _ ifname
  | getCopyOfGlobalInfo ifname => exact keepsSize_namedLookup hstays _ ifname
  | deleteTable ifname =>
    cases ifname with
    | none => exact keepsSize_failed t
    | some ifname =>
      refine keepsSize_lookupSection (hstays ifname) (fun i _ => ?_) (keepsSize_failed t)
      split
      · exact keepsSize_failed t
      · exact keepsSize_point rfl trivial
  | setName ifname newIfname =>
    cases ifname with
    | none => exact keepsSize_failed t
    | some ifname =>
      cases newIfname with
      | none => exact keepsSize_failed t
      | some newIfname =>
        exact keepsSize_lookupSection (hstays newIfname) (fun _ _ => keepsSize_failed t)
          (keepsSize_point rfl trivial)

theorem Tallied.keepsSize {p : Platform} {q : PortConf × List PortEvent} (h : Tallied p q)
    {ev : PortStep} {o : PortOutcome} (ho : outcome (portProgram p) q.1 ev = some o)
    (hkeeps : KeepsSize q.1.shared o)
    (hrest : (rest q.1 ev).countP PortPoint.removing = q.1.threads.countP PortPoint.removing) :
    Tallied p (stepLog (portProgram p) q ev) := by
  rw [stepLog_some ho]
  have hold : ∀ recs, o.shared.gpstEthGInfo = some recs →
      ∃ recs₀, q.1.shared.gpstEthGInfo = some recs₀ ∧ recs₀.length = recs.length := by
    intro recs hrecs
    have hmap := hkeeps.size.length
    rwa [hrecs,Option.map_some,eq_comm,Option.map_eq_some_iff] at hmap
  have hcount : (o.threads ++ rest q.1 ev).countP PortPoint.removing =
      q.1.threads.countP PortPoint.removing := by
    rw [List.countP_append,hkeeps.threads,hrest,Nat.zero_add]
  refine ⟨h.inside.append _ hkeeps.events,?_,?_,?_,?_⟩
  · intro recs hrecs
    obtain ⟨recs₀,hrecs₀,hlen⟩ := hold recs hrecs
    rw [hcount,hkeeps.size.gTotal,hkeeps.size.ulTotal,← hlen]
    exact h.total recs₀ hrecs₀
  · intro recs hrecs
    obtain ⟨recs₀,hrecs₀,hlen⟩ := hold recs hrecs
    exact hlen ▸ h.fits recs₀ hrecs₀
  · rw [hcount]
    exact h.one
  · exact List.forall_mem_append.mpr
      ⟨fun point hp => hkeeps.size.placed (hkeeps.placed point hp),
        fun point hp => hkeeps.size.placed (h.placed point (mem_of_mem_rest hp))⟩

theorem removing_of_rest {q : PortConf × List PortEvent} {k : Nat} (reallocated : Bool)
    {point : PortPoint} (hk : q.1.threads[k]? = some point) (hpoint : point.removing = false) :
    (rest q.1 (.resume k reallocated : PortStep)).countP PortPoint.removing =
      q.1.threads.countP PortPoint.removing := by
  rw [countP_resume (κ := PortCall) reallocated hk,hpoint]
  rfl

theorem Tallied.deleteCount {p : Platform} {q : PortConf × List PortEvent} (h : Tallied p q)
    {k i : Nat} {reallocated : Bool} (hk : q.1.threads[k]? = some (.deleteCount i))
    (hi : i < q.1.shared.records.length)
    (hothers : ∀ other ∈ rest q.1 (.resume k reallocated : PortStep), other.removing = false) :
    Tallied p (stepLog (portProgram p) q (.resume k reallocated)) := by
  have hrest := removing_of_rest reallocated hk rfl
  have hnone : q.1.threads.countP PortPoint.removing = 0 := by
    rw [← hrest,List.countP_eq_zero]
    exact fun other hother => by simp [hothers other hother]
  rw [hnone] at hrest
  have hcounted : q.1.shared.ulTotalNoofEthInterfaces = q.1.shared.records.length ∧
      q.1.shared.records.length < 2^p.ulongBits := by
    cases hrecs : q.1.shared.gpstEthGInfo with
    | none => simp [PortTable.records,hrecs] at hi
    | some recs =>
      have htotal := (h.total recs hrecs).2
      rw [hnone,Nat.add_zero] at htotal
      rw [PortTable.records,hrecs]
      exact ⟨htotal,h.fits recs hrecs⟩
  have hpos := Nat.lt_of_le_of_lt (Nat.zero_le i) hi
  have hdec := decrement_eq hpos hcounted.2
  rw [stepLog_some (outcome_resume hk)]
  simp only [portProgram,portResume,hcounted.1,hdec,List.append_nil]
  refine ⟨h.inside,fun recs hrecs => ⟨(h.total recs hrecs).1,?_⟩,h.fits,?_,?_⟩
  · have hlen : q.1.shared.records.length = recs.length := by
      rw [PortTable.records,show q.1.shared.gpstEthGInfo = some recs from hrecs,Option.getD_some]
    rw [List.countP_append,hrest]
    simp [PortPoint.removing]
    omega
  · rw [List.countP_append,hrest]
    simp [PortPoint.removing]
  · refine List.forall_mem_append.mpr ⟨List.forall_mem_singleton.mpr ⟨?_,fun hlast => ?_⟩,?_⟩
    · exact (Nat.sub_add_cancel hpos).symm
    · have hne := of_decide_eq_false hlast
      omega
    · intro other hother
      have hplaced := h.placed other (mem_of_mem_rest hother)
      cases other with
      | deleteRecord _ _ _ => exact absurd (hothers _ hother) (by simp [PortPoint.removing])
      | renameStore _ _ => exact hplaced
      | _ => trivial

/-- A deletion that finds what it has counted shrinks the table to that. -/
theorem deleteRecord_of_placed (p : Platform) {t : PortTable} {i iTotal : Nat} {isLast : Bool}
    (h : Placed t (.deleteRecord i iTotal isLast)) (reallocated : Bool) :
    ∃ recs, recs.length = iTotal ∧
      deleteRecord p t i iTotal isLast reallocated = shrink t recs reallocated := by
  obtain ⟨hlen,hbefore⟩ := h
  have hlength : (reallocate p t.gpstEthGInfo iTotal).length = iTotal := by simp [reallocate]
  cases isLast with
  | true => exact ⟨_,hlength,rfl⟩
  | false =>
    obtain ⟨last,hlast⟩ : ∃ last, t.records[iTotal]? = some last :=
      ⟨_,List.getElem?_eq_getElem (by omega)⟩
    have hi := Nat.not_le.mpr (hbefore rfl)
    refine ⟨(reallocate p t.gpstEthGInfo iTotal).modify i
      (copyRecord (copyRecord last p.stackMemory)),?_,?_⟩
    · rw [List.length_modify,hlength]
    · simp [deleteRecord,hlast,hi]

theorem Tallied.deleteRecord {p : Platform} {q : PortConf × List PortEvent} (h : Tallied p q)
    {k i iTotal : Nat} {isLast reallocated : Bool}
    (hk : q.1.threads[k]? = some (.deleteRecord i iTotal isLast))
    (hstored : reallocated = true ∨
      ∀ other ∈ rest q.1 (.resume k reallocated : PortStep), other.storing = false) :
    Tallied p (stepLog (portProgram p) q (.resume k reallocated)) := by
  obtain ⟨hlen,-⟩ := h.placed _ (List.mem_of_getElem? hk)
  obtain ⟨recs,hrecs⟩ : ∃ recs, q.1.shared.gpstEthGInfo = some recs := by
    cases hinfo : q.1.shared.gpstEthGInfo with
    | none => simp [PortTable.records,hinfo] at hlen
    | some recs => exact ⟨recs,rfl⟩
  have hrecords : q.1.shared.records = recs := by rw [PortTable.records,hrecs,Option.getD_some]
  rw [hrecords] at hlen
  have hcount := countP_resume (κ := PortCall) reallocated hk PortPoint.removing
  obtain ⟨hgTotal,htotal⟩ := h.total recs hrecs
  have hone := h.one
  simp only [PortPoint.removing,if_true] at hcount
  have hnone : (rest q.1 (.resume k reallocated : PortStep)).countP PortPoint.removing = 0 := by
    omega
  have hothers := List.countP_eq_zero.mp hnone
  obtain ⟨recs',hlen',heq⟩ := deleteRecord_of_placed p (h.placed _ (List.mem_of_getElem? hk))
    reallocated
  rw [stepLog_some (outcome_resume hk)]
  simp only [portProgram,portResume,heq]
  have hkeeps : ∀ other ∈ rest q.1 (.resume k reallocated : PortStep), ∀ {t : PortTable},
      (t.gpstEthGInfo = none → other.storing = false) → Placed t other := by
    intro other hother t ht
    cases other with
    | deleteRecord _ _ _ => exact absurd rfl (hothers _ hother)
    | renameStore _ _ => exact fun hinfo => absurd (ht hinfo) (by simp [PortPoint.storing])
    | _ => trivial
  cases reallocated with
  | true =>
    simp only [shrink,if_true,List.nil_append]
    refine ⟨h.inside.append _ (by simp),?_,?_,hnone ▸ Nat.zero_le 1,
      fun other hother => hkeeps other hother (by simp)⟩
    · intro recs₀ heq₀
      obtain rfl := Option.some_inj.mp heq₀
      have hcounts : q.1.shared.gTotal-1 = recs'.length ∧
          q.1.shared.ulTotalNoofEthInterfaces+0 = recs'.length := by omega
      exact ⟨hcounts.1,hnone ▸ hcounts.2⟩
    · intro recs₀ heq₀
      obtain rfl := Option.some_inj.mp heq₀
      have hfits := h.fits recs hrecs
      omega
  | false =>
    have hstored' := hstored.resolve_left (by simp)
    simp only [shrink,failed]
    exact ⟨h.inside.append _ (by simp),fun _ hn => absurd hn (by simp),
      fun _ hn => absurd hn (by simp),
      hnone ▸ Nat.zero_le 1,fun other hother => hkeeps other hother fun _ => hstored' other hother⟩

theorem Tallied.step {p : Platform} {q : PortConf × List PortEvent} (h : Tallied p q)
    {ev : PortStep} (hc : DeletionsApart q ev) : Tallied p (stepLog (portProgram p) q ev) := by
  cases ev with
  | enter call => exact h.keepsSize rfl (keepsSize_portEnter h.stays call) rfl
  | resume k reallocated =>
    refine stepLog_resume_inv h fun point hk => ?_
    have hapart := hc point hk
    have ho : outcome (portProgram p) q.1 (.resume k reallocated) = some _ := outcome_resume hk
    cases point with
    | access op ifname i =>
      refine h.keepsSize ho ?_ (removing_of_rest _ hk rfl)
      cases op with
      | getCopyOfGlobalInfo =>
        exact ⟨sameSize_refl _,by simp [portProgram,portResume,namedAccess],rfl,
          fun _ h => absurd h List.not_mem_nil⟩
      | _ => exact keepsSize_modifyRecord _ _ _ (by simp)
    | deleteCount i => exact h.deleteCount hk hapart.1 hapart.2
    | deleteRecord i iTotal isLast => exact h.deleteRecord hk hapart
    | renameFind ifname newIfname =>
      exact h.keepsSize ho (keepsSize_lookupSection (h.stays ifname)
        (fun i hi => keepsSize_point rfl (gpstEthGInfo_of_index hi)) (keepsSize_failed _))
        (removing_of_rest _ hk rfl)
    | renameStore i newIfname =>
      refine h.keepsSize ho ?_ (removing_of_rest _ hk rfl)
      have hplaced := h.placed _ (List.mem_of_getElem? hk)
      obtain ⟨recs,hrecs⟩ := Option.ne_none_iff_exists'.mp hplaced
      have hgTotal := (h.total recs hrecs).1
      simp only [portProgram,portResume,PortTable.records,hrecs,Option.getD_some,hgTotal]
      split
      · exact keepsSize_failed _
      · exact keepsSize_modifyRecord _ _ _ (by simp)

end InsideTheTable

/-- From any table with no call in progress: as long as no operation between its two
sections loses its record, every access meets the record that has the name at that
moment; and as soon as one does, the next section can show it. From a counted table no
section leaves the table, as long as no deletion counts while another is on its way. -/
theorem named_access_iff (p : Platform) (t : PortTable) (steps : List PortStep) :
    (Meets (stepLog (portProgram p)) (Undisturbed p) (⟨t,[]⟩,[]) steps →
      Always (stepLog (portProgram p)) NamedOnly (⟨t,[]⟩,[]) steps) ∧
    (Always (stepLog (portProgram p)) (NamedNext p) (⟨t,[]⟩,[]) steps ↔
      Meets (stepLog (portProgram p)) (Undisturbed p) (⟨t,[]⟩,[]) steps) ∧
    ∀ recs, t = .ofRecords recs → recs.length < 2^p.ulongBits →
      Meets (stepLog (portProgram p)) DeletionsApart (⟨t,[]⟩,[]) steps →
      Always (stepLog (portProgram p)) InsideOnly (⟨t,[]⟩,[]) steps := by
  have hinit : Named ((⟨t,[]⟩,[]) : PortConf × List PortEvent) :=
    ⟨fun _ _ h => absurd h List.not_mem_nil,fun _ h => absurd h List.not_mem_nil⟩
  refine ⟨always_of_meets (J := Named) hinit (fun _ _ h hc => h.step hc) fun _ h => h.accessed,
    ?_,?_⟩
  · refine always_iff_meets (J := Named) hinit (fun _ _ h hc => h.step hc)
      (fun _ h => h.accessed_step) fun q ev h hnext => ?_
    intro o ho point hpoint _
    have hpending := hnext.hasIndex point
    rw [stepLog_some ho] at hpending
    exact hpending (List.mem_append_right _ hpoint)
  · rintro recs rfl hfits
    have hone : ∀ recs', (PortTable.ofRecords recs).gpstEthGInfo = some recs' → recs' = recs :=
      fun _ h => (Option.some_inj.mp h).symm
    have htallied : Tallied p ((⟨.ofRecords recs,[]⟩,[]) : PortConf × List PortEvent) :=
      ⟨List.not_mem_nil,fun _ h => hone _ h ▸ ⟨rfl,rfl⟩,fun _ h => hone _ h ▸ hfits,
        Nat.zero_le 1,fun _ h => absurd h List.not_mem_nil⟩
    exact always_of_meets htallied (fun _ _ h hc => h.step hc) fun _ h => h.inside

def portAlone (p : Platform) (reallocated : Bool) (t : PortTable) : PortCall → PortTable
  | .setWanStatus ifname wanStatus => (cosaDmlEthPortSetWanStatus t ifname wanStatus).2
  | .linkStatusCallback ifname state => cosaDmlEthPortLinkStatusCallback t ifname state
  | .getCopyOfGlobalInfo _ => t
  | .deleteTable ifname => (cosDmlEthPortUpdateGlobalInfo p reallocated t ifname .ethDelTable).2
  | .setName ifname newIfname => (cosaDmlEthPortSetName t ifname newIfname).2

def backToBack (p : Platform) (reallocated : Bool) (t : PortTable) (call : PortCall) : PortConf :=
  exec (silent (step (portProgram p))) ⟨t,[]⟩
    [.enter call,.resume 0 reallocated,.resume 0 reallocated]

theorem lookupSection_ofRecords (recs : List PortRecord) (ifname : Text)
    (found : Nat → PortOutcome) (notFound : PortOutcome) :
    lookupSection (.ofRecords recs) ifname found notFound =
      match cosaDmlEthPortGetIndexFromIfName (.ofRecords recs) (some ifname) with
      | some ifIndex => found ifIndex
      | none => notFound :=
  if_neg fun h => Nat.lt_irrefl _ h.2.1

theorem backToBack_named (p : Platform) (reallocated : Bool) (recs : List PortRecord)
    {call : PortCall} (op : NamedOp) {ifname : Option Text}
    (h : portEnter p (.ofRecords recs) call = namedLookup (.ofRecords recs) op ifname) :
    backToBack p reallocated (.ofRecords recs) call =
      ⟨match cosaDmlEthPortGetIndexFromIfName (.ofRecords recs) ifname with
        | none => .ofRecords recs
        | some i => (namedAccess (.ofRecords recs) op [] i).shared,[]⟩ := by
  cases ifname with
  | none =>
    simp [backToBack,silent,step,outcome,portProgram,h,namedLookup,failed,rest,
      cosaDmlEthPortGetIndexFromIfName]
  | some ifname =>
    simp only [backToBack,silent,step,outcome,portProgram,exec_cons,exec_nil,h,namedLookup,
      lookupSection_ofRecords]
    cases hi : cosaDmlEthPortGetIndexFromIfName (.ofRecords recs) (some ifname) <;>
      simp [failed,rest,portResume,namedAccess]

theorem backToBack_deleteTable (p : Platform) (reallocated : Bool) (recs : List PortRecord)
    (h0 : 0 < recs.length) (hbits : recs.length < 2^p.ulongBits) (ifname : Text) :
    backToBack p reallocated (.ofRecords recs) (.deleteTable (some ifname)) =
      ⟨(cosDmlEthPortUpdateGlobalInfo p reallocated (.ofRecords recs) (some ifname)
        .ethDelTable).2,[]⟩ := by
  have hdec := decrement_eq h0 hbits
  simp only [backToBack,silent,step,outcome,portProgram,portEnter,exec_cons,exec_nil,
    cosDmlEthPortUpdateGlobalInfo,lookupSection_ofRecords]
  cases hi : cosaDmlEthPortGetIndexFromIfName (.ofRecords recs) (some ifname) with
  | none => simp [failed,rest]
  | some i =>
    have hlt : i < recs.length := (index_lt (t := .ofRecords recs) rfl hi).1
    have htotal : (PortTable.ofRecords recs).ulTotalNoofEthInterfaces = recs.length := rfl
    by_cases hp : i < p.totalNumberOfInternalInterfaces
    · simp [hp,failed,rest]
    · by_cases hlast : i+1 = recs.length
      · cases reallocated <;>
          simp [hp,rest,portResume,deleteRecord,shrink,failed,htotal,hdec,hlast]
      · obtain ⟨last,hget⟩ : ∃ last, recs[recs.length-1]? = some last :=
          ⟨_,List.getElem?_eq_getElem (by omega)⟩
        have hinside : ¬recs.length-1 ≤ i := by omega
        cases reallocated <;> simp [hp,rest,portResume,deleteRecord,shrink,failed,hdec,
          hlast,hget,hinside,PortTable.records,PortTable.ofRecords]

/-- Sections with nothing in between make up the sequential operations. -/
theorem backToBack_eq (p : Platform) (reallocated : Bool) (recs : List PortRecord)
    (call : PortCall) (h0 : 0 < recs.length) (hbits : recs.length < 2^p.ulongBits) :
    backToBack p reallocated (.ofRecords recs) call =
      ⟨portAlone p reallocated (.ofRecords recs) call,[]⟩ := by
  cases call with
  | setWanStatus ifname wanStatus =>
    rw [backToBack_named p reallocated recs (.setWanStatus wanStatus) rfl]
    simp only [portAlone,cosaDmlEthPortSetWanStatus]
    split <;> simp [*,namedAccess]
  | linkStatusCallback ifname state =>
    cases state with
    | none =>
      simp [backToBack,silent,step,outcome,portProgram,portEnter,failed,rest,portAlone,
        cosaDmlEthPortLinkStatusCallback]
    | some state =>
      rw [backToBack_named p reallocated recs (.linkStatusCallback _) rfl]
      simp only [portAlone,cosaDmlEthPortLinkStatusCallback]
      split <;> simp [*,namedAccess,linkStatusOfState]
  | getCopyOfGlobalInfo ifname =>
    rw [backToBack_named p reallocated recs .getCopyOfGlobalInfo rfl]
    simp only [portAlone]
    split <;> simp [namedAccess]
  | deleteTable ifname =>
    cases ifname with
    | none =>
      simp [backToBack,silent,step,outcome,portProgram,portEnter,failed,rest,portAlone,
        cosDmlEthPortUpdateGlobalInfo]
    | some ifname => exact backToBack_deleteTable p reallocated recs h0 hbits ifname
  | setName ifname newIfname =>
    cases ifname with
    | none => cases newIfname <;> simp [backToBack,silent,step,outcome,portProgram,portEnter,
        failed,rest,portAlone,cosaDmlEthPortSetName,cosaDmlEthPortGetIndexFromIfName]
    | some ifname =>
      cases newIfname with
      | none => simp [backToBack,silent,step,outcome,portProgram,portEnter,failed,rest,portAlone,
          cosaDmlEthPortSetName]
      | some newIfname =>
        simp only [backToBack,silent,step,outcome,portProgram,portEnter,portAlone,exec_cons,
          exec_nil,cosaDmlEthPortSetName,lookupSection_ofRecords]
        cases hnew : cosaDmlEthPortGetIndexFromIfName (.ofRecords recs) (some newIfname) with
        | some j => simp [failed,rest]
        | none =>
          cases hi : cosaDmlEthPortGetIndexFromIfName (.ofRecords recs) (some ifname) with
          | none => simp [failed,rest,portResume,lookupSection_ofRecords,hi]
          | some i =>
            have hlt := index_lt (t := .ofRecords recs) rfl hi
            simp [rest,portResume,lookupSection_ofRecords,hi,Nat.not_le.mpr hlt.1,
              Nat.not_le.mpr hlt.2]

def sixPortTable : PortTable :=
  (cosaDmlEthPortInit fourPorts { unconfigured with cfgCount := some 6 }).ports

/-- `eth4` is deleted after its index was looked up, and `eth5` gets that index. -/
def deletedBetween : List PortStep :=
  [.enter (.setWanStatus (some "eth4".toList) .up),.enter (.deleteTable (some "eth4".toList)),
    .resume 0 true,.resume 0 true,.resume 0 true]

/-- The deletions of `eth4` and `eth5` both count before one of them takes its record
away. -/
def deletionsOverlap : List PortStep :=
  [.enter (.deleteTable (some "eth4".toList)),.enter (.deleteTable (some "eth5".toList)),
    .resume 1 true,.resume 1 true,.resume 0 true]

theorem access_meets_another_port :
    ¬ Always (stepLog (portProgram fourPorts)) NamedOnly (⟨sixPortTable,[]⟩,[])
      deletedBetween ∧
    ¬ Always (stepLog (portProgram fourPorts)) InsideOnly (⟨sixPortTable,[]⟩,[])
      deletionsOverlap := by
  refine ⟨fun h => ?_,fun h => ?_⟩
  · let c : PortConfig := { unconfigured with cfgCount := some 6 }
    have hmoved : ∃ r, .accessed "eth4".toList (some r) ∈
        (exec (stepLog (portProgram fourPorts)) (⟨sixPortTable,[]⟩,[]) deletedBetween).2 ∧
          r.name.text = "eth5".toList :=
      ⟨copyRecord (copyRecord (initRecord fourPorts c 5) fourPorts.stackMemory)
        (initRecord fourPorts c 4),by decide +kernel,by decide +kernel⟩
    obtain ⟨r,hmem,hname⟩ := hmoved
    obtain ⟨_,hr,hasked⟩ := h.last _ _ hmem
    obtain rfl := Option.some_inj.mp hr
    exact absurd (hname.symm.trans hasked) (by decide)
  · have hleft : .outside ∈
        (exec (stepLog (portProgram fourPorts)) (⟨sixPortTable,[]⟩,[]) deletionsOverlap).2 := by
      decide +kernel
    exact h.last hleft

end EthAgent
