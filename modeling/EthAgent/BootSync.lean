import EthAgent.WanNotify

/-!
How the agent brings the WAN manager up to date when it starts: the entries of the WAN
manager are joined with the ports by name, each one that is found gets the path of its
port, and the one that the HAL uses for EthWAN gets its status if the link is up already.
-/

set_option autoImplicit false

namespace EthAgent.WanNotify
open CString Packed Scanf

/-- What the HAL answers, and whether `isEthwan_initialized`. A name fits in `IFNAMSIZ`. -/
structure EthWanHal where
  interfaceName : Option Text
  fits : ∀ name ∈ interfaceName, name.length < 16
  linkUp : Bool
  initialized : Bool

/-- `INTEL_PUMA7` beside the other two macros. -/
structure BootBuild extends WanBuild where
  intelPuma7 : Bool

structure Mapping where
  pInterface : Text
  sent : List ParameterVal

/-- The loop of `CosaDmlMapWanCPEtoEthInterfaces` over the entries from the index `i` on;
`none` where it has no defined result. -/
def mapEntries (b : WanBuild) (w : WanBus) (t : PortTable) (hal : EthWanHal) :
    Nat → Nat → Mapping → Option (Bool × Mapping)
  | 0,_,s => some (true,s)
  | left+1,i,s =>
    (cosaDmlEthGetParamValues w (wanIfNameParamName b.wanManagerUnification (i+1)) []).bind fun
      | none => mapEntries b w t hal left (i+1) s
      | some acParamValue =>
        match t.gpstEthGInfo with
        | none => none
        | some recs =>
          match (recs.take t.gTotal).findIdx? fun r => r.name.text = acParamValue with
          | none => mapEntries b w t hal left (i+1) s
          | some iEthLoopCount =>
            let path := if b.setsPhyPath then
                cosaDmlEthSetParamValues w s.sent
                  ⟨wanPhyPathParamName b.wanManagerUnification (i+1),
                    ethIfPhyPath (iEthLoopCount+1),.ccspString⟩
              else (true,s.sent)
            if path.1 then
              mapEntries b w t hal left (i+1)
                ⟨if hal.interfaceName = some acParamValue then acParamValue else s.pInterface,
                  path.2⟩
            else some (false,⟨s.pInterface,path.2⟩)

def cosaDmlMapWanCPEtoEthInterfaces (b : WanBuild) (w : WanBus) (t : PortTable)
    (hal : EthWanHal) : Option (Bool × Mapping) :=
  (cosaDmlEthGetParamValues w (wanNoeParamName b.wanManagerUnification) []).bind fun
    | none => some (false,⟨[],[]⟩)
    | some acParamValue =>
      let iTotalNoofEntries := w.int.store (atoi acParamValue)
      if iTotalNoofEntries ≤ 0 ∨ t.gTotal = 0 then some (false,⟨[],[]⟩)
      else mapEntries b w t hal iTotalNoofEntries.toNat 0 ⟨[],[]⟩

def cosaDmlEthGetPhyStatusForWanManager (unified : Bool) (w : WanBus) (t : PortTable)
    (ifname : Text) : Option (Option Text) :=
  (wanInstance unified w t ifname).bind fun
    | none => some none
    | some iWANInstance =>
      (cosaDmlEthGetParamValues w (wanPhyStatusParamName unified iWANInstance) []).bind fun
        | none => some none
        | some phyStatus => if phyStatus.length < 16 then some (some phyStatus) else none

/-- The build asks for the status of the link when it starts, and the link is up. -/
def BootBuild.findsLinkUp (b : BootBuild) (hal : EthWanHal) : Bool :=
  if b.autowanEnable then hal.linkUp && hal.initialized
  else if b.intelPuma7 then false
  else hal.linkUp

def wanoeIfaceUp : Text := "Up".toList

/-- The end of `CosaDmlEthInit`: the port table then, and the sets that were made. -/
def cosaDmlEthInit (b : BootBuild) (w : WanBus) (t : PortTable) (hal : EthWanHal) :
    Option (PortTable × List ParameterVal) :=
  (cosaDmlMapWanCPEtoEthInterfaces b.toWanBuild w t hal).bind fun
    | (false,m) => some (t,m.sent)
    | (true,m) =>
      if b.findsLinkUp hal then
        (cosaDmlEthGetPhyStatusForWanManager b.wanManagerUnification w t m.pInterface).bind fun
          | none => some (t,m.sent)
          | some phyStatus =>
            if phyStatus = wanoeIfaceUp then some (t,m.sent)
            else
              let later : WanBus := { w with set := fun k => w.set (m.sent.length+k) }
              (cosaDmlEthSetPhyStatusForWanManager b.toWanBuild later t (some m.pInterface)
                (some wanoeIfaceUp)).map fun o =>
                  (match cosaDmlEthPortGetIndexFromIfName t (some m.pInterface) with
                    | none => t
                    | some ifIndex => t.modifyRecord ifIndex fun r => { r with linkStatus := .up },
                    m.sent ++ o.2)
      else some (t,m.sent)

structure WanEntry where
  name : Text
  phyPath : Text
  phyStatus : Text
  deriving DecidableEq

/-- The entry whose parameter is asked for. -/
def entryOf (entries : List WanEntry) (param : Nat → Text) (key : Text) : Option WanEntry :=
  (entries.zipIdx.find? fun e => key = param (e.2+1)).map Prod.fst

def busOf (unified : Bool) (entries : List WanEntry) : WanBus where
  int := wrappingInt
  get := fun key =>
    if key = wanNoeParamName unified then .value (decimal entries.length)
    else
      match entryOf entries (wanIfNameParamName unified) key with
      | some e => .value e.name
      | none =>
        match entryOf entries (wanPhyStatusParamName unified) key with
        | some e => .value e.phyStatus
        | none => .failed
  set := fun _ => ⟨true,false⟩

def WanEntry.applySet (unified : Bool) (s : ParameterVal) (e : WanEntry × Nat) : WanEntry :=
  if s.parameterName = wanPhyPathParamName unified (e.2+1) then
    { e.1 with phyPath := s.parameterValue }
  else if s.parameterName = wanPhyStatusParamName unified (e.2+1) then
    { e.1 with phyStatus := s.parameterValue }
  else e.1

def applySet (unified : Bool) (entries : List WanEntry) (s : ParameterVal) : List WanEntry :=
  entries.zipIdx.map (WanEntry.applySet unified s)

def entriesAfter (unified : Bool) (entries : List WanEntry) (sent : List ParameterVal) :
    List WanEntry :=
  sent.foldl (applySet unified) entries

/-- The WAN manager can be asked: it has entries, each with a name, and the texts fit. -/
structure Readable (entries : List WanEntry) : Prop where
  some : entries ≠ []
  count : entries.length < 2^31
  names : ∀ e ∈ entries, e.name ≠ [] ∧ e.name.length < 256
  statuses : ∀ e ∈ entries, e.phyStatus.length < 16

theorem decimal_dot_injective {n n' : Nat} {p p' : Text}
    (h : decimal n ++ '.' :: p = decimal n' ++ '.' :: p') : n = n' ∧ p = p' := by
  have hdigits : ∀ (n : Nat) (p : Text), (decimal n ++ '.' :: p).takeWhile Char.isDigit =
      decimal n := by
    intro n p
    rw [List.takeWhile_append_of_pos fun c hc => isDigit_of_mem_decimal hc,
      List.takeWhile_cons_of_neg (by decide),List.append_nil]
  have hn : decimal n = decimal n' := by rw [← hdigits n p,h,hdigits]
  rw [hn] at h
  exact ⟨decimal_injective hn,(List.cons.inj (List.append_cancel_left h)).2⟩

theorem wanEntryParam_injective {unified : Bool} {n n' : Nat} {p q p' q' : Text}
    (h : wanEntryParam unified n p q = wanEntryParam unified n' p' q') :
    n = n' ∧ if unified then p = p' else q = q' := by
  cases unified with
  | true =>
    simp only [wanEntryParam,if_true,List.append_assoc] at h
    exact decimal_dot_injective (List.append_cancel_left h)
  | false =>
    simp only [wanEntryParam,Bool.false_eq_true,if_false,List.append_assoc] at h
    exact decimal_dot_injective (List.append_cancel_left h)

theorem wanEntryParam_ne_count (unified : Bool) (n : Nat) (p q : Text) :
    wanEntryParam unified n p q ≠ wanNoeParamName unified := by
  intro h
  cases unified with
  | true =>
    have hat : (wanEntryParam true n p q)[33]? = (wanNoeParamName true)[33]? := by rw [h]
    exact absurd hat (by simp [wanEntryParam,wanNoeParamName])
  | false =>
    have hat : (wanEntryParam false n p q)[36]? = (wanNoeParamName false)[36]? := by rw [h]
    exact absurd hat (by simp [wanEntryParam,wanNoeParamName])

theorem param_injective (unified : Bool) (p q : Text) :
    ∀ i j, wanEntryParam unified i p q = wanEntryParam unified j p q → i = j :=
  fun _ _ h => (wanEntryParam_injective h).1

theorem name_ne_status (unified : Bool) (n k : Nat) :
    wanPhyStatusParamName unified n ≠ wanIfNameParamName unified k := by
  intro h
  have hparam := (wanEntryParam_injective h).2
  cases unified with
  | true => exact absurd hparam (by decide)
  | false => exact absurd hparam (by decide)

theorem path_ne_status (unified : Bool) (n k : Nat) :
    wanPhyStatusParamName unified n ≠ wanPhyPathParamName unified k := by
  intro h
  have hparam := (wanEntryParam_injective h).2
  cases unified with
  | true => exact absurd hparam (by decide)
  | false => exact absurd hparam (by decide)

variable {entries : List WanEntry} {unified : Bool}

theorem entryOf_param {param : Nat → Text} (hparam : ∀ i j, param i = param j → i = j)
    (entries : List WanEntry) (k : Nat) : entryOf entries param (param (k+1)) = entries[k]? := by
  have hfind : ∀ (es : List WanEntry) (start : Nat), start ≤ k →
      ((es.zipIdx start).find? fun e => param (k+1) = param (e.2+1)).map Prod.fst =
        es[k-start]? := by
    intro es
    induction es with
    | nil => intro start _; rfl
    | cons e es ih =>
      intro start hstart
      rw [List.zipIdx_cons,List.find?_cons]
      by_cases hk : k = start
      · subst hk
        simp
      · have hne : param (k+1) ≠ param (start+1) := fun h => hk (by
          have := hparam _ _ h
          omega)
        simp only [hne,decide_false]
        rw [ih (start+1) (by omega)]
        obtain ⟨d,rfl⟩ : ∃ d, k = start+1+d := ⟨k-(start+1),by omega⟩
        rw [show start+1+d-(start+1) = d by omega,show start+1+d-start = d+1 by omega,
          List.getElem?_cons_succ]
  exact hfind entries 0 (Nat.zero_le k)

theorem entryOf_eq_none {param : Nat → Text} {key : Text} (h : ∀ k, key ≠ param k)
    (entries : List WanEntry) : entryOf entries param key = none := by
  rw [entryOf,List.find?_eq_none.mpr fun e _ => by simpa using h (e.2+1)]
  rfl

theorem get_name (h : Readable entries) {k : Nat} {e : WanEntry} (he : entries[k]? = some e) :
    cosaDmlEthGetParamValues (busOf unified entries) (wanIfNameParamName unified (k+1)) [] =
      some (some e.name) := by
  have hfits := (h.names e (List.mem_of_getElem? he)).2
  have hget : (busOf unified entries).get (wanIfNameParamName unified (k+1)) = .value e.name := by
    have hentry : entryOf entries (wanIfNameParamName unified) (wanIfNameParamName unified (k+1)) =
        some e := (entryOf_param (param_injective unified _ _) entries k).trans he
    have hcount : wanIfNameParamName unified (k+1) ≠ wanNoeParamName unified :=
      wanEntryParam_ne_count unified (k+1) _ _
    simp only [busOf]
    rw [if_neg hcount,hentry]
  rw [cosaDmlEthGetParamValues,hget]
  exact if_pos hfits

theorem get_status (h : Readable entries) {k : Nat} {e : WanEntry} (he : entries[k]? = some e) :
    cosaDmlEthGetParamValues (busOf unified entries) (wanPhyStatusParamName unified (k+1)) [] =
      some (some e.phyStatus) := by
  have hfits := h.statuses e (List.mem_of_getElem? he)
  have hget : (busOf unified entries).get (wanPhyStatusParamName unified (k+1)) =
      .value e.phyStatus := by
    have hentry : entryOf entries (wanPhyStatusParamName unified)
        (wanPhyStatusParamName unified (k+1)) = some e :=
      (entryOf_param (param_injective unified _ _) entries k).trans he
    have hcount : wanPhyStatusParamName unified (k+1) ≠ wanNoeParamName unified :=
      wanEntryParam_ne_count unified (k+1) _ _
    simp only [busOf]
    rw [if_neg hcount,entryOf_eq_none (name_ne_status unified (k+1)),hentry]
  rw [cosaDmlEthGetParamValues,hget]
  exact if_pos (by omega)

theorem get_count (unified : Bool) (h : Readable entries) :
    cosaDmlEthGetParamValues (busOf unified entries) (wanNoeParamName unified) [] =
      some (some (decimal entries.length)) := by
  have hdigits : (decimal entries.length).length ≤ 10 :=
    length_decimal_le (by decide) (by have := h.count; omega)
  have hget : (busOf unified entries).get (wanNoeParamName unified) =
      .value (decimal entries.length) := if_pos rfl
  rw [cosaDmlEthGetParamValues,hget]
  exact if_pos (by omega)

def portOf (t : PortTable) (name : Text) : Option Nat :=
  cosaDmlEthPortGetIndexFromIfName t (some name)

def pathSet (unified : Bool) (t : PortTable) (e : WanEntry × Nat) : Option ParameterVal :=
  (portOf t e.1.name).map fun i =>
    ⟨wanPhyPathParamName unified (e.2+1),ethIfPhyPath (i+1),.ccspString⟩

def pathSets (b : WanBuild) (t : PortTable) (es : List (WanEntry × Nat)) : List ParameterVal :=
  if b.setsPhyPath then es.filterMap (pathSet b.wanManagerUnification t) else []

/-- The name of a port and of one of the entries that is the HAL's, or what was there. -/
def wanoeName (t : PortTable) (hal : EthWanHal) (es : List WanEntry) (pInterface : Text) : Text :=
  es.foldl (fun p e => if hal.interfaceName = some e.name ∧ (portOf t e.name).isSome = true then
    e.name else p) pInterface

theorem pathSets_cons (b : WanBuild) (t : PortTable) (e : WanEntry × Nat)
    (es : List (WanEntry × Nat)) :
    pathSets b t (e :: es) = pathSets b t [e] ++ pathSets b t es := by
  unfold pathSets
  split
  · exact List.filterMap_append (l := [e])
  · rfl

variable {b : BootBuild} {t : PortTable} {hal : EthWanHal} {recs : List PortRecord}

theorem mapEntries_eq (h : Readable entries) (ht : t.gpstEthGInfo = some recs)
    (before after : List WanEntry) (hsplit : entries = before ++ after) (s : Mapping) :
    mapEntries b.toWanBuild (busOf b.wanManagerUnification entries) t hal after.length
        before.length s =
      some (true,⟨wanoeName t hal after s.pInterface,
        s.sent ++ pathSets b.toWanBuild t (after.zipIdx before.length)⟩) := by
  induction after generalizing before s with
  | nil =>
    have hnone : pathSets b.toWanBuild t ([] : List (WanEntry × Nat)) = [] := by simp [pathSets]
    rw [List.zipIdx_nil,hnone,List.append_nil]
    rfl
  | cons e after ih =>
    have he : entries[before.length]? = some e := by
      rw [hsplit,List.getElem?_append_right (Nat.le_refl _),Nat.sub_self]
      rfl
    have hrest : ∀ s, _ := fun s => ih (before ++ [e]) (by rw [hsplit,List.append_assoc]; rfl) s
    simp only [List.length_append,List.length_singleton] at hrest
    have hport : (recs.take t.gTotal).findIdx? (fun r => r.name.text = e.name) =
        portOf t e.name := by
      rw [portOf,cosaDmlEthPortGetIndexFromIfName,ht]
    rw [List.length_cons,mapEntries,get_name h he,Option.bind_some]
    simp only [ht,hport]
    rw [List.zipIdx_cons,pathSets_cons,← List.append_assoc]
    cases hi : portOf t e.name with
    | none =>
      have hset : pathSets b.toWanBuild t [(e,before.length)] = [] := by
        simp [pathSets,pathSet,hi]
      have hname :
          wanoeName t hal (e :: after) s.pInterface = wanoeName t hal after s.pInterface := by
        simp [wanoeName,hi]
      simp only [hrest,hset,hname,List.append_nil]
    | some i =>
      have hname : wanoeName t hal (e :: after) s.pInterface = wanoeName t hal after
          (if hal.interfaceName = some e.name then e.name else s.pInterface) := by
        simp [wanoeName,hi]
      rw [hname]
      cases hb : b.setsPhyPath with
      | false =>
        have hset : pathSets b.toWanBuild t [(e,before.length)] = [] := by simp [pathSets,hb]
        simp only [Bool.false_eq_true,if_false,if_true,hrest,hset,List.append_nil]
      | true =>
        have hset : pathSets b.toWanBuild t [(e,before.length)] =
            [⟨wanPhyPathParamName b.wanManagerUnification (before.length+1),
              ethIfPhyPath (i+1),.ccspString⟩] := by
          simp [pathSets,pathSet,hb,hi]
        have hreply : ¬ ((busOf b.wanManagerUnification entries).set s.sent.length).Reported :=
          fun hrep => absurd hrep.1 (by simp [busOf])
        simp only [if_true,setParamValues_eq,hreply,not_false_eq_true,decide_true,hrest,hset]

theorem wanoeName_eq (t : PortTable) (hal : EthWanHal) (es : List WanEntry) (pInterface : Text) :
    wanoeName t hal es pInterface =
      if ∃ e ∈ es, hal.interfaceName = some e.name ∧ (portOf t e.name).isSome = true then
        hal.interfaceName.getD []
      else pInterface := by
  induction es generalizing pInterface with
  | nil => simp [wanoeName]
  | cons e es ih =>
    rw [wanoeName,List.foldl_cons,← wanoeName,ih]
    by_cases he : hal.interfaceName = some e.name ∧ (portOf t e.name).isSome = true
    · have hname : hal.interfaceName.getD [] = e.name := by rw [he.1]; rfl
      rw [if_pos he,hname,ite_self,if_pos ⟨e,List.mem_cons_self,he⟩]
    · simp [he]

theorem mapWanCPEtoEthInterfaces_eq (h : Readable entries) (ht : t.gpstEthGInfo = some recs)
    (hpos : t.gTotal ≠ 0) :
    cosaDmlMapWanCPEtoEthInterfaces b.toWanBuild (busOf b.wanManagerUnification entries) t hal =
      some (true,⟨wanoeName t hal entries [],pathSets b.toWanBuild t entries.zipIdx⟩) := by
  have hlength : 0 < entries.length := List.length_pos_iff.mpr h.some
  have hmap : mapEntries b.toWanBuild (busOf b.wanManagerUnification entries) t hal entries.length
      0 ⟨[],[]⟩ = some (true,⟨wanoeName t hal entries [],pathSets b.toWanBuild t entries.zipIdx⟩) :=
    mapEntries_eq h ht [] entries rfl ⟨[],[]⟩
  rw [cosaDmlMapWanCPEtoEthInterfaces,get_count _ h,Option.bind_some]
  have hstore : (busOf b.wanManagerUnification entries).int.store entries.length =
      entries.length := IntStore.exact _ _ (by omega) (by have := h.count; omega)
  simp only [atoi_decimal,hstore]
  rw [if_neg (by omega)]
  exact hmap

def WanEntry.applyAll (unified : Bool) (k : Nat) (e : WanEntry) (sent : List ParameterVal) :
    WanEntry :=
  sent.foldl (fun e s => WanEntry.applySet unified s (e,k)) e

theorem getElem?_entriesAfter (unified : Bool) (entries : List WanEntry)
    (sent : List ParameterVal) (k : Nat) :
    (entriesAfter unified entries sent)[k]? =
      entries[k]?.map fun e => e.applyAll unified k sent := by
  induction sent generalizing entries with
  | nil => simp [entriesAfter,WanEntry.applyAll]
  | cons s sent ih =>
    have hone : (applySet unified entries s)[k]? =
        entries[k]?.map fun e => WanEntry.applySet unified s (e,k) := by
      simp [applySet,List.getElem?_zipIdx,Function.comp_def]
    rw [entriesAfter,List.foldl_cons,← entriesAfter,ih,hone,Option.map_map]
    rfl

theorem applyAll_append (unified : Bool) (k : Nat) (e : WanEntry) (s s' : List ParameterVal) :
    e.applyAll unified k (s ++ s') = (e.applyAll unified k s).applyAll unified k s' :=
  List.foldl_append

theorem applySet_path (unified : Bool) (j k : Nat) (value : Text) (e : WanEntry) :
    WanEntry.applySet unified ⟨wanPhyPathParamName unified (j+1),value,.ccspString⟩ (e,k) =
      if j = k then { e with phyPath := value } else e := by
  have hpath : wanPhyPathParamName unified (j+1) = wanPhyPathParamName unified (k+1) ↔ j = k :=
    ⟨fun h => Nat.succ.inj (param_injective unified _ _ _ _ h),fun h => by rw [h]⟩
  have hstatus : wanPhyPathParamName unified (j+1) ≠ wanPhyStatusParamName unified (k+1) :=
    fun h => path_ne_status unified (k+1) (j+1) h.symm
  simp only [WanEntry.applySet,hpath,hstatus,if_false]

theorem applySet_status (unified : Bool) (j k : Nat) (value : Text) (e : WanEntry) :
    WanEntry.applySet unified ⟨wanPhyStatusParamName unified (j+1),value,.ccspString⟩ (e,k) =
      if j = k then { e with phyStatus := value } else e := by
  have hstatus : wanPhyStatusParamName unified (j+1) = wanPhyStatusParamName unified (k+1) ↔
      j = k :=
    ⟨fun h => Nat.succ.inj (param_injective unified _ _ _ _ h),fun h => by rw [h]⟩
  simp only [WanEntry.applySet,hstatus,path_ne_status unified (j+1) (k+1),if_false]

def pathAfter (b : WanBuild) (t : PortTable) (e : WanEntry) : Text :=
  if b.setsPhyPath then (portOf t e.name).elim e.phyPath fun i => ethIfPhyPath (i+1)
  else e.phyPath

theorem applyAll_pathSet (b : WanBuild) (t : PortTable) (x e : WanEntry) (start k : Nat) :
    e.applyAll b.wanManagerUnification k (pathSets b t [(x,start)]) =
      if start = k then { e with phyPath := pathAfter b t { x with phyPath := e.phyPath } }
      else e := by
  unfold pathSets pathAfter
  cases b.setsPhyPath with
  | false => simp [WanEntry.applyAll]
  | true =>
    cases hi : portOf t x.name with
    | none => simp [pathSet,hi,WanEntry.applyAll]
    | some i => simp [pathSet,hi,WanEntry.applyAll,applySet_path]

theorem applyAll_pathSets (b : WanBuild) (t : PortTable) (es : List WanEntry) (start k : Nat)
    (e : WanEntry) :
    e.applyAll b.wanManagerUnification k (pathSets b t (es.zipIdx start)) =
      if start ≤ k then
        es[k-start]?.elim e fun x =>
          { e with phyPath := pathAfter b t { x with phyPath := e.phyPath } }
      else e := by
  induction es generalizing start e with
  | nil => simp [pathSets,WanEntry.applyAll]
  | cons x es ih =>
    rw [List.zipIdx_cons,pathSets_cons,applyAll_append,applyAll_pathSet,ih]
    by_cases hk : start = k
    · subst hk
      simp
    · by_cases hle : start ≤ k
      · obtain ⟨d,rfl⟩ : ∃ d, k = start+1+d := ⟨k-(start+1),by omega⟩
        rw [if_neg hk,if_pos (by omega),if_pos hle,show start+1+d-(start+1) = d by omega,
          show start+1+d-start = d+1 by omega,List.getElem?_cons_succ]
      · rw [if_neg hk,if_neg (by omega),if_neg hle]

theorem copiedName_eq (t : PortTable) (name : Text) :
    copiedName t name = if (portOf t name).isSome = true then name else [] := by
  rw [copiedName]
  cases hi : portOf t name with
  | none =>
    have hindex : cosaDmlEthPortGetIndexFromIfName t (some name) = none := hi
    rw [cosaDmlEthPortGetCopyOfGlobalInfoForGivenIfName,hindex]
    rfl
  | some i =>
    obtain ⟨r,hr,hname⟩ := record_of_index hi
    rw [getCopy_of_index hi,hr,Option.isSome_some,if_pos rfl]
    exact hname

theorem wanInstance_busOf (b : WanBuild) (h : Readable entries) (t : PortTable) (name : Text)
    (set : Nat → SetReply) (hset : ∀ k, (set k).accepted = true) :
    wanInstance b.wanManagerUnification { busOf b.wanManagerUnification entries with set := set } t
        name = some ((entries.findIdx? fun e => e.name = copiedName t name).map (·+1)) := by
  have hanswers : AnswersFor b { busOf b.wanManagerUnification entries with set := set }
      ⟨entries.map fun e => some e.name,fun _ => true⟩ :=
    { count := by
        rw [List.length_map]
        exact if_pos rfl
      countFits := by
        rw [List.length_map]
        exact h.count
      names := fun k name hk => by
        simp only [List.getElem?_map,Option.map_eq_some_iff] at hk
        obtain ⟨e,he,rfl⟩ := hk
        exact get_name h he
      sets := fun k param _ => ⟨fun hrep => absurd hrep.1 (by simp [hset]),fun hfalse => by
        cases hfalse⟩ }
  rw [wanInstance_answersFor hanswers,EthAgent.wanInstance,
    EthAgent.cosaDmlEthGetLowerLayersInstanceInOtherAgent,List.findIdx?_map]
  simp only [Function.comp_def,Option.some_inj]
  rfl

/-- The entry that is told of its link: the first one with the HAL's name, of a port. -/
def statusEntry (b : BootBuild) (t : PortTable) (hal : EthWanHal) (entries : List WanEntry) :
    Option Nat :=
  if b.findsLinkUp hal then
    hal.interfaceName.bind fun name =>
      if (portOf t name).isSome then entries.findIdx? fun e => e.name = name else none
  else none

/-- The port whose record gets the link status. -/
def linkUpPort (b : BootBuild) (t : PortTable) (hal : EthWanHal) (entries : List WanEntry) :
    Option Nat :=
  (statusEntry b t hal entries).bind fun k => entries[k]?.bind fun e =>
    if e.phyStatus = wanoeIfaceUp then none else portOf t e.name

def statusSets (b : WanBuild) (t : PortTable) (e : WanEntry × Nat) : List ParameterVal :=
  if e.1.phyStatus = wanoeIfaceUp then []
  else pathSets b t [e] ++
    [⟨wanPhyStatusParamName b.wanManagerUnification (e.2+1),wanoeIfaceUp,.ccspString⟩]

theorem setPhyStatus_busOf (b : WanBuild) (h : Readable entries) {e : WanEntry} {k i : Nat}
    (hi : portOf t e.name = some i) (hk : entries.findIdx? (fun x => x.name = e.name) = some k)
    (set : Nat → SetReply) (hset : ∀ k, (set k).accepted = true) :
    cosaDmlEthSetPhyStatusForWanManager b
        { busOf b.wanManagerUnification entries with set := set } t (some e.name)
        (some wanoeIfaceUp) =
      some (true,pathSets b t [(e,k)] ++
        [⟨wanPhyStatusParamName b.wanManagerUnification (k+1),wanoeIfaceUp,.ccspString⟩]) := by
  have hinstance := wanInstance_busOf b h t e.name set hset
  rw [copiedName_eq,hi,Option.isSome_some,if_pos rfl,hk] at hinstance
  have hreply : ∀ k, ¬ (set k).Reported := fun k hrep =>
    absurd hrep.1 (by simp [hset k])
  have hindex : cosaDmlEthPortGetIndexFromIfName t (some e.name) = some i := hi
  simp only [cosaDmlEthSetPhyStatusForWanManager,withInstance,hinstance,Option.map_some,
    setPhyPathAndStatus,hindex,setParamValues_eq,hreply,not_false_eq_true,decide_true]
  unfold pathSets
  split
  · simp [pathSet,hi]
  · rfl

theorem exists_findIdx_name {name : Text} (h : ∃ e ∈ entries, e.name = name) :
    ∃ k e, entries.findIdx? (fun x => x.name = name) = some k ∧ entries[k]? = some e ∧
      e.name = name := by
  cases hk : entries.findIdx? fun x => x.name = name with
  | none =>
    obtain ⟨e,he,hname⟩ := h
    have hnone := List.findIdx?_eq_none_iff.mp hk e he
    simp [hname] at hnone
  | some k =>
    obtain ⟨hlt,hat,-⟩ := List.findIdx?_eq_some_iff_getElem.mp hk
    exact ⟨k,entries[k],rfl,List.getElem?_eq_getElem hlt,by simpa using hat⟩

theorem statusEntry_found (h : Readable entries) (hup : b.findsLinkUp hal = true)
    (hfound : ∃ e ∈ entries, hal.interfaceName = some e.name ∧ (portOf t e.name).isSome = true) :
    ∃ k e i, entries[k]? = some e ∧ statusEntry b t hal entries = some k ∧
      entries.findIdx? (fun x => x.name = e.name) = some k ∧ portOf t e.name = some i ∧
      wanoeName t hal entries [] = e.name ∧
      cosaDmlEthGetPhyStatusForWanManager b.wanManagerUnification
        (busOf b.wanManagerUnification entries) t e.name = some (some e.phyStatus) := by
  obtain ⟨x,hx,hhal,hport⟩ := hfound
  obtain ⟨k,e,hk,he,hname⟩ := exists_findIdx_name ⟨x,hx,rfl⟩
  obtain ⟨i,hi⟩ := Option.isSome_iff_exists.mp hport
  have htarget : wanoeName t hal entries [] = x.name := by
    rw [wanoeName_eq,if_pos ⟨x,hx,hhal,hport⟩,hhal]
    rfl
  rw [← hname] at hhal hk hi htarget
  refine ⟨k,e,i,he,by simp [statusEntry,hup,hhal,hi,hk],hk,hi,htarget,?_⟩
  have hinstance : wanInstance b.wanManagerUnification (busOf b.wanManagerUnification entries) t
      e.name = some (some (k+1)) := by
    have h := wanInstance_busOf b.toWanBuild h t e.name
      (busOf b.wanManagerUnification entries).set fun _ => rfl
    rwa [copiedName_eq,hi,Option.isSome_some,if_pos rfl,hk] at h
  rw [cosaDmlEthGetPhyStatusForWanManager,hinstance]
  simp only [Option.bind_some,get_status h he]
  exact if_pos (h.statuses e (List.mem_of_getElem? he))

/-- Without such an entry it looks for one without a name, and there is none. -/
theorem statusEntry_missing (h : Readable entries)
    (hmissing : ¬ ∃ e ∈ entries, hal.interfaceName = some e.name ∧
      (portOf t e.name).isSome = true) :
    statusEntry b t hal entries = none ∧ wanoeName t hal entries [] = [] ∧
      cosaDmlEthGetPhyStatusForWanManager b.wanManagerUnification
        (busOf b.wanManagerUnification entries) t [] = some none := by
  refine ⟨?_,by rw [wanoeName_eq,if_neg hmissing],?_⟩
  · unfold statusEntry
    split
    · cases hhal : hal.interfaceName with
      | none => rfl
      | some name =>
        simp only [Option.bind_some]
        split
        · next hport =>
          refine List.findIdx?_eq_none_iff.mpr fun e he => ?_
          simp only [decide_eq_false_iff_not]
          intro heq
          exact hmissing ⟨e,he,by rw [hhal,heq],by rw [heq]; exact hport⟩
        · rfl
    · rfl
  · have hempty : copiedName t [] = [] := by
      rw [copiedName_eq]
      split <;> rfl
    have hnone : entries.findIdx? (fun e => e.name = []) = none :=
      List.findIdx?_eq_none_iff.mpr fun e he => by simpa using (h.names e he).1
    have hinstance : wanInstance b.wanManagerUnification (busOf b.wanManagerUnification entries) t
        [] = some none := by
      have h := wanInstance_busOf b.toWanBuild h t []
        (busOf b.wanManagerUnification entries).set fun _ => rfl
      rwa [hempty,hnone] at h
    rw [cosaDmlEthGetPhyStatusForWanManager,hinstance]
    rfl

theorem cosaDmlEthInit_eq (h : Readable entries) (ht : t.gpstEthGInfo = some recs)
    (hpos : t.gTotal ≠ 0) :
    cosaDmlEthInit b (busOf b.wanManagerUnification entries) t hal =
      some ((linkUpPort b t hal entries).elim t fun i =>
          t.modifyRecord i fun r => { r with linkStatus := .up },
        pathSets b.toWanBuild t entries.zipIdx ++
          ((statusEntry b t hal entries).bind fun k => entries[k]?.map fun e => (e,k)).elim []
            (statusSets b.toWanBuild t)) := by
  rw [cosaDmlEthInit,mapWanCPEtoEthInterfaces_eq h ht hpos,Option.bind_some]
  simp only []
  cases hup : b.findsLinkUp hal with
  | false => simp [statusEntry,linkUpPort,hup]
  | true =>
    simp only [if_true]
    by_cases hfound :
      ∃ e ∈ entries, hal.interfaceName = some e.name ∧ (portOf t e.name).isSome = true
    · obtain ⟨k,e,i,he,hentry,hk,hi,htarget,hstatus⟩ := statusEntry_found h hup hfound
      have hlink : linkUpPort b t hal entries =
          if e.phyStatus = wanoeIfaceUp then none else some i := by
        simp [linkUpPort,hentry,he,hi]
      have hindex : cosaDmlEthPortGetIndexFromIfName t (some e.name) = some i := hi
      have hsets := setPhyStatus_busOf b.toWanBuild h hi hk
        (fun j => (busOf b.wanManagerUnification entries).set
          ((pathSets b.toWanBuild t entries.zipIdx).length+j)) fun _ => rfl
      rw [htarget,hstatus,hentry,hlink]
      simp only [Option.bind_some,he,Option.map_some,Option.elim_some,statusSets]
      by_cases hsame : e.phyStatus = wanoeIfaceUp
      · simp [hsame]
      · simp only [if_neg hsame]
        rw [hsets,hindex]
        rfl
    · obtain ⟨hentry,htarget,hstatus⟩ := statusEntry_missing (b := b) h hfound
      rw [htarget,hstatus,hentry]
      simp [linkUpPort,hentry]

/-- The entry that is told of its link has the status then, whether or not it is set. -/
theorem applyAll_statusSets (b : WanBuild) (t : PortTable) (x e : WanEntry) (j k : Nat) :
    e.applyAll b.wanManagerUnification k (statusSets b t (x,j)) =
      if j = k ∧ x.phyStatus ≠ wanoeIfaceUp then
        { e with
          phyPath := pathAfter b t { x with phyPath := e.phyPath }
          phyStatus := wanoeIfaceUp }
      else e := by
  unfold statusSets
  by_cases hsame : x.phyStatus = wanoeIfaceUp
  · simp [hsame,WanEntry.applyAll]
  · rw [if_neg hsame,applyAll_append,applyAll_pathSet]
    simp only [WanEntry.applyAll,List.foldl_cons,List.foldl_nil,applySet_status]
    by_cases hk : j = k
    · simp [hk,hsame]
    · simp [hk]

theorem pathAfter_twice (b : WanBuild) (t : PortTable) (e : WanEntry) :
    pathAfter b t { e with phyPath := pathAfter b t e } = pathAfter b t e := by
  unfold pathAfter
  split
  · cases portOf t e.name <;> rfl
  · rfl

def synchronised (b : BootBuild) (t : PortTable) (hal : EthWanHal) (entries : List WanEntry)
    (k : Nat) (e : WanEntry) : WanEntry where
  name := e.name
  phyPath := pathAfter b.toWanBuild t e
  phyStatus := if statusEntry b t hal entries = some k then wanoeIfaceUp else e.phyStatus

theorem entriesAfter_init (b : BootBuild) (t : PortTable) (hal : EthWanHal)
    (entries : List WanEntry) (k : Nat) :
    (entriesAfter b.wanManagerUnification entries (pathSets b.toWanBuild t entries.zipIdx ++
      ((statusEntry b t hal entries).bind fun k => entries[k]?.map fun e => (e,k)).elim []
        (statusSets b.toWanBuild t)))[k]? = entries[k]?.map (synchronised b t hal entries k) := by
  rw [getElem?_entriesAfter]
  cases he : entries[k]? with
  | none => rfl
  | some e =>
    have hpath := applyAll_pathSets b.toWanBuild t entries 0 k e
    rw [if_pos (Nat.zero_le k),Nat.sub_zero,he] at hpath
    simp only [Option.map_some,applyAll_append,hpath,Option.elim_some,synchronised]
    cases hentry : statusEntry b t hal entries with
    | none => rfl
    | some j =>
      cases hx : entries[j]? with
      | none =>
        have hne : some j ≠ some k := fun hjk => by
          rw [Option.some_inj.mp hjk,he] at hx
          cases hx
        simp [hx,hne,WanEntry.applyAll]
      | some x =>
        simp only [Option.bind_some,hx,Option.map_some,Option.elim_some,applyAll_statusSets,
          Option.some_inj]
        by_cases hjk : j = k
        · subst hjk
          obtain rfl : x = e := Option.some_inj.mp (hx.symm.trans he)
          by_cases hsame : x.phyStatus = wanoeIfaceUp
          · simp only [ne_eq,hsame,not_true_eq_false,and_false,if_false,if_true]
            rfl
          · simp only [ne_eq,hsame,not_false_eq_true,and_self,if_true,pathAfter_twice]
        · simp [hjk]

/-- When the agent has started, each entry of the WAN manager that has the name of a port
has the path of this port, if the build sets it, and the first one with the HAL's name has
the status of its link if the build finds it up; nothing else is changed. The record of
this port gets the link status only if the WAN manager did not have the status already. -/
theorem boot_synchronises (b : BootBuild) (hal : EthWanHal) (h : Readable entries)
    (hpos : recs ≠ []) :
    ∃ t' sent, cosaDmlEthInit b (busOf b.wanManagerUnification entries) (.ofRecords recs) hal =
        some (t',sent) ∧
      (∀ k, (entriesAfter b.wanManagerUnification entries sent)[k]? =
        entries[k]?.map (synchronised b (.ofRecords recs) hal entries k)) ∧
      t' = (linkUpPort b (.ofRecords recs) hal entries).elim (.ofRecords recs) fun i =>
        (PortTable.ofRecords recs).modifyRecord i fun r => { r with linkStatus := .up } := by
  have hinit : cosaDmlEthInit b (busOf b.wanManagerUnification entries) (.ofRecords recs) hal =
      some _ := cosaDmlEthInit_eq h rfl (mt List.length_eq_zero_iff.mp hpos)
  exact ⟨_,_,hinit,entriesAfter_init b _ hal entries,rfl⟩

def bootHal : EthWanHal := ⟨some "eth1".toList,by decide,true,true⟩

/-- The entries of a cable modem and of the second port. -/
def bootEntries : List WanEntry :=
  [⟨"cm0".toList,[],"Up".toList⟩,⟨"eth1".toList,[],"Down".toList⟩]

theorem boot_synchronises_second_port :
    ∃ t' sent, cosaDmlEthInit ⟨⟨false,false⟩,false⟩ (busOf false bootEntries)
        (.ofRecords portRecords) bootHal = some (t',sent) ∧
      (∀ k, (entriesAfter false bootEntries sent)[k]? = bootEntries[k]?.map
        (synchronised ⟨⟨false,false⟩,false⟩ (.ofRecords portRecords) bootHal bootEntries k)) ∧
      t' = (linkUpPort ⟨⟨false,false⟩,false⟩ (.ofRecords portRecords) bootHal bootEntries).elim
        (.ofRecords portRecords) fun i =>
          (PortTable.ofRecords portRecords).modifyRecord i fun r => { r with linkStatus := .up } :=
  boot_synchronises ⟨⟨false,false⟩,false⟩ bootHal
    ⟨by decide,by decide,by decide +kernel,by decide +kernel⟩ (by decide)

end EthAgent.WanNotify
