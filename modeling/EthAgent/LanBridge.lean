import EthAgent.Lib.CString
import EthAgent.Lib.Runs
import EthAgent.Lib.Tokens

/-!
The members of brlan0 in PSM, a list of names with blanks in between.
`EthMgr_AddPortToLanBridge` puts a name in, or takes it out, and looks for it with
`strstr`.
-/

set_option autoImplicit false

namespace EthAgent
open CString Runs Tokens

/-- The records of PSM that are used here, without what PSM may fail to read. -/
structure LanStore where
  brlan0EthMembers : Text
  lanBridgePort : Option Text
  deriving DecidableEq

/-- `COSA_DML_ETH_PORT_CONFIG`, as far as it is read here. -/
structure LanPort where
  name : Buf 64
  wanLanCapable : Bool

structure LanAnswers where
  membersRead : Bool
  allocated : Bool
  membersStored : Bool
  ethPortConfigure : Bool

def psmValueSize : Nat := 128

def strSize : Nat := 512

def isBlank (c : Char) : Bool := c = ' '

def members (s : LanStore) : List Text := tokens isBlank s.brlan0EthMembers

/-- `strncat`, which adds `n` characters at most. -/
def strncat (dest src : Text) (n : Nat) : Text := dest ++ src.take n

def keepToken (sub : Text) (len : Nat) (tmp token : Text) : Text :=
  if sub <:+: token then tmp
  else
    let tmp := strncat tmp token (len-tmp.length-1)
    strncat tmp [' '] (len-tmp.length-1)

/-- Of an empty text the code looks at the byte in front of the buffer: no result. -/
def dropLastBlank (str : Text) : Option Text :=
  str.getLast?.map fun c => if c = ' ' then str.dropLast else str

def removeSubStrWithSpace (allocated : Bool) (str sub : Text) : Option (Bool × Text) :=
  let len := str.length+1
  if allocated then
    let tmp := exec (keepToken sub len) [] (tokens isBlank str)
    (dropLastBlank (tmp.take (strSize-1))).map fun str => (true,str)
  else some (false,str)

/-- The name looked for. It is `none` where a record of PSM overruns its buffer. -/
def lanIfname (autoPortSwitch : Bool) (s : LanStore) (pEthLink : LanPort) : Option Text :=
  if autoPortSwitch ∧ pEthLink.wanLanCapable then
    match s.lanBridgePort with
    | none => some pEthLink.name.text
    | some port =>
      if port.length < psmValueSize then some (if port = [] then pEthLink.name.text else port)
      else none
  else some pEthLink.name.text

inductive NewMembers where
  | failed
  | unchanged
  | changed (newPSMValue : Text)

def newMembers (a : LanAnswers) (acPSMValue ifname : Text) (addToBridge : Bool) :
    Option NewMembers :=
  if addToBridge then
    some (if ifname <:+: acPSMValue then .unchanged
      else .changed ((acPSMValue ++ [' '] ++ ifname).take (strSize-1)))
  else if ifname <:+: acPSMValue then
    (removeSubStrWithSpace a.allocated (acPSMValue.take (strSize-1)) ifname).map fun removed =>
      if removed.1 then .changed removed.2 else .failed
  else some .unchanged

/-- `EthMgr_AddPortToLanBridge`. Where a record overruns the buffer that it is read
into, or an access goes in front of one, the result is `none`. -/
def ethMgrAddPortToLanBridge (autoPortSwitch : Bool) (a : LanAnswers) (s : LanStore)
    (pEthLink : Option LanPort) (addToBridge : Bool) : Option (Bool × LanStore) :=
  match pEthLink with
  | none => some (false,s)
  | some pEthLink =>
    (lanIfname autoPortSwitch s pEthLink).bind fun ifname =>
      if a.membersRead then
        if s.brlan0EthMembers.length < psmValueSize then
          let ret := if autoPortSwitch then a.ethPortConfigure else true
          (newMembers a s.brlan0EthMembers ifname addToBridge).map fun
            | .failed => (false,s)
            | .unchanged => (ret,s)
            | .changed newPSMValue =>
              if a.membersStored then (ret,{ s with brlan0EthMembers := newPSMValue })
              else (false,s)
        else none
      else some (false,s)

/-- Bounded appending, one text after another, is cutting their concatenation once. -/
theorem strncat_take (c : Nat) (dest src : Text) :
    strncat (dest.take c) src (c+1-(dest.take c).length-1) = (dest ++ src).take c := by
  rw [strncat,List.take_append,List.length_take]
  congr 2
  omega

theorem keepToken_take (sub : Text) (c : Nat) (dest token : Text) :
    keepToken sub (c+1) (dest.take c) token =
      (if sub <:+: token then dest else dest ++ (token ++ [' '])).take c := by
  unfold keepToken
  split
  · rfl
  · simp only [strncat_take]
    rw [List.append_assoc]

theorem exec_keepToken (sub : Text) (c : Nat) (dest : Text) (ts : List Text) :
    exec (keepToken sub (c+1)) (dest.take c) ts =
      (dest ++ terminated ' ' (ts.filter fun t => ¬ sub <:+: t)).take c := by
  induction ts generalizing dest with
  | nil => simp [terminated]
  | cons t ts ih =>
    rw [exec_cons,keepToken_take,ih]
    by_cases ht : sub <:+: t
    · simp [ht]
    · simp [ht,terminated]

theorem isBlank_blank : isBlank ' ' = true := rfl

theorem dropLastBlank_concat (init : Text) (c : Char) :
    dropLastBlank (init ++ [c]) = some (if c = ' ' then init else init ++ [c]) := by
  rw [dropLastBlank,List.getLast?_concat,Option.map_some,List.dropLast_concat]

/-- At most the blank after the last token is cut off, or taken off at the end. -/
theorem tokens_cut {ts : List Text} (hne : ts ≠ []) (hts : ∀ t ∈ ts, IsToken isBlank t) {c : Nat}
    (hc : (terminated ' ' ts).length ≤ c+1) :
    ∃ text, dropLastBlank ((terminated ' ' ts).take c) = some text ∧
      tokens isBlank text = ts := by
  obtain ⟨init,last,rfl⟩ := (List.eq_nil_or_concat' ts).resolve_left hne
  have hlast := hts last (by simp)
  have hsplit : terminated ' ' (init ++ [last]) = (terminated ' ' init ++ last) ++ [' '] := by
    simp [terminated]
  have htokens : tokens isBlank (terminated ' ' init ++ last) = init ++ [last] := by
    rw [← tokens_concat_sep isBlank_blank,← hsplit]
    exact tokens_terminated isBlank_blank hts
  refine ⟨terminated ' ' init ++ last,?_,htokens⟩
  rw [hsplit] at hc ⊢
  rw [List.length_append,List.length_singleton] at hc
  by_cases hcut : c = (terminated ' ' init ++ last).length
  · -- the token before the cut does not end in a blank
    obtain ⟨body,x,hbody⟩ := (List.eq_nil_or_concat' last).resolve_left hlast.nonempty
    have hx : x ≠ ' ' := fun he => hlast.not_mem isBlank_blank (by simp [hbody,he])
    rw [hcut,List.take_left,hbody,← List.append_assoc,dropLastBlank_concat,if_neg hx]
  · have hall : ((terminated ' ' init ++ last) ++ [' ']).length ≤ c := by
      rw [List.length_append,List.length_singleton]
      omega
    rw [List.take_of_length_le hall,dropLastBlank_concat,if_pos rfl]

theorem exec_keepTokens {str : Text} (hstr : str.length < strSize) (sub : Text) :
    (exec (keepToken sub (str.length+1)) [] (tokens isBlank str)).take (strSize-1) =
      (terminated ' ' ((tokens isBlank str).filter fun t => ¬ sub <:+: t)).take str.length := by
  have hexec := exec_keepToken sub str.length [] (tokens isBlank str)
  rw [List.take_nil,List.nil_append] at hexec
  rw [hexec,List.take_take,Nat.min_eq_right (by omega)]

theorem removeSubStr_kept {str sub : Text} (hstr : str.length < strSize)
    (h : ∃ t ∈ tokens isBlank str, ¬ sub <:+: t) :
    ∃ text, removeSubStrWithSpace true str sub = some (true,text) ∧
      tokens isBlank text = (tokens isBlank str).filter fun t => ¬ sub <:+: t := by
  have hne : (tokens isBlank str).filter (fun t => ¬ sub <:+: t) ≠ [] := by
    obtain ⟨t,ht,hsub⟩ := h
    exact List.ne_nil_of_mem (List.mem_filter.mpr ⟨ht,by simpa using hsub⟩)
  obtain ⟨text,hdrop,htokens⟩ := tokens_cut hne
    (fun t ht => isToken_of_mem (List.mem_filter.mp ht).1)
    ((length_terminated_sublist List.filter_sublist).trans (length_terminated_le ' ' str))
  refine ⟨text,?_,htokens⟩
  simp only [removeSubStrWithSpace,if_true]
  rw [exec_keepTokens hstr,hdrop,Option.map_some]

theorem removeSubStr_none {str sub : Text} (hstr : str.length < strSize)
    (h : ∀ t ∈ tokens isBlank str, sub <:+: t) : removeSubStrWithSpace true str sub = none := by
  have hnone : (tokens isBlank str).filter (fun t => ¬ sub <:+: t) = [] :=
    List.filter_eq_nil_iff.mpr fun t ht => by simpa using h t ht
  simp only [removeSubStrWithSpace,if_true]
  rw [exec_keepTokens hstr,hnone,terminated,List.flatMap_nil,List.take_nil]
  rfl

def addedMembers (ifname text : Text) : Text :=
  if ifname <:+: text then text else text ++ [' '] ++ ifname

/-- The list that a call leaves, every step of it made. -/
def changedMembers (ifname text : Text) (addToBridge : Bool) : Option Text :=
  if addToBridge then some (addedMembers ifname text)
  else if ifname <:+: text then (removeSubStrWithSpace true text ifname).map Prod.snd
  else some text

theorem tokens_addedMembers (ifname text : Text) :
    tokens isBlank (addedMembers ifname text) =
      if ifname <:+: text then tokens isBlank text
      else tokens isBlank text ++ tokens isBlank ifname := by
  unfold addedMembers
  split
  · rfl
  · rw [List.append_assoc]
    exact tokens_sep isBlank_blank text ifname

/-- A removal comes to an end where a member is kept or the name does not occur. -/
def Removable (ifname text : Text) : Prop :=
  ifname <:+: text → ∃ t ∈ tokens isBlank text, ¬ ifname <:+: t

theorem changedMembers_removed {ifname text : Text} (ht : text.length < psmValueSize)
    (h : Removable ifname text) :
    ∃ text', changedMembers ifname text false = some text' ∧
      tokens isBlank text' = (tokens isBlank text).filter fun t => ¬ ifname <:+: t := by
  have hsize : psmValueSize < strSize := by decide
  unfold changedMembers
  by_cases hin : ifname <:+: text
  · obtain ⟨text',hremoved,htokens⟩ := removeSubStr_kept (by omega) (h hin)
    refine ⟨text',?_,htokens⟩
    rw [if_neg Bool.false_ne_true,if_pos hin,hremoved,Option.map_some]
  · have hall : ∀ t ∈ tokens isBlank text, ¬ ifname <:+: t :=
      fun t hmem hin' => hin (hin'.trans (infix_of_mem hmem))
    refine ⟨text,?_,?_⟩
    · rw [if_neg Bool.false_ne_true,if_neg hin]
    · exact (List.filter_eq_self.mpr fun t hmem => by simpa using hall t hmem).symm

theorem changedMembers_none {ifname text : Text} (ht : text.length < psmValueSize)
    (h : ¬Removable ifname text) : changedMembers ifname text false = none := by
  have hsize : psmValueSize < strSize := by decide
  unfold Removable at h
  push Not at h
  obtain ⟨hin,hall⟩ := h
  rw [changedMembers,if_neg Bool.false_ne_true,if_pos hin,removeSubStr_none (by omega) hall]
  rfl

theorem lanIfname_length {autoPortSwitch : Bool} {s : LanStore} {pEthLink : LanPort}
    {ifname : Text} (h : lanIfname autoPortSwitch s pEthLink = some ifname) :
    ifname.length < psmValueSize := by
  have hname : pEthLink.name.text.length < psmValueSize :=
    Nat.lt_trans pEthLink.name.fits (by decide)
  unfold lanIfname at h
  split at h
  · split at h
    · rwa [← Option.some_inj.mp h]
    · rename_i port _
      by_cases hport : port.length < psmValueSize
      · rw [if_pos hport,Option.some_inj] at h
        rw [← h]
        split <;> assumption
      · rw [if_neg hport] at h
        exact absurd h (by simp)
  · rwa [← Option.some_inj.mp h]

def lanWorks (ethPortConfigure : Bool) : LanAnswers := ⟨true,true,true,ethPortConfigure⟩

theorem ethMgrAddPort_eq {autoPortSwitch : Bool} (c : Bool) {s : LanStore} {pEthLink : LanPort}
    {ifname : Text} (h : lanIfname autoPortSwitch s pEthLink = some ifname)
    (addToBridge : Bool) :
    ethMgrAddPortToLanBridge autoPortSwitch (lanWorks c) s (some pEthLink) addToBridge =
      if s.brlan0EthMembers.length < psmValueSize then
        (changedMembers ifname s.brlan0EthMembers addToBridge).map fun text =>
          (if autoPortSwitch then c else true,{ s with brlan0EthMembers := text })
      else none := by
  have hname := lanIfname_length h
  by_cases hlen : s.brlan0EthMembers.length < psmValueSize
  · have hsize : psmValueSize+psmValueSize < strSize := by decide
    have hcut : (s.brlan0EthMembers ++ [' '] ++ ifname).take (strSize-1) =
        s.brlan0EthMembers ++ [' '] ++ ifname :=
      List.take_of_length_le (by simp only [List.length_append,List.length_singleton]; omega)
    have hcut' : s.brlan0EthMembers.take (strSize-1) = s.brlan0EthMembers :=
      List.take_of_length_le (by omega)
    simp only [ethMgrAddPortToLanBridge,h,Option.bind_some,lanWorks,if_true,hlen,newMembers,
      hcut,hcut',changedMembers,addedMembers]
    cases addToBridge with
    | true => by_cases hin : ifname <:+: s.brlan0EthMembers <;> simp [hin]
    | false =>
      by_cases hin : ifname <:+: s.brlan0EthMembers
      · simp only [hin,Bool.false_eq_true,if_false,if_true,Option.map_map,removeSubStrWithSpace]
        rfl
      · simp [hin]
  · simp [ethMgrAddPortToLanBridge,h,lanWorks,hlen]

inductive BridgeChange where
  | add
  | remove
  | addRemove

/-- What is said of the tokens of the list, for the name that the calls look for. -/
def TokenExact (autoPortSwitch c : Bool) (s : LanStore) (pEthLink : LanPort) (ifname : Text) :
    BridgeChange → Prop
  | .add => ∃ r s',
      ethMgrAddPortToLanBridge autoPortSwitch (lanWorks c) s (some pEthLink) true = some (r,s') ∧
        ∀ t, t ∈ members s' ↔ t ∈ members s ∨ t = ifname
  | .remove => ∃ r s',
      ethMgrAddPortToLanBridge autoPortSwitch (lanWorks c) s (some pEthLink) false =
          some (r,s') ∧
        members s' = (members s).filter fun t => t ≠ ifname
  | .addRemove => ifname ∉ members s → ∃ r s',
      ethMgrAddPortToLanBridge autoPortSwitch (lanWorks c) s (some pEthLink) true = some (r,s') ∧
        ∃ r' s'', ethMgrAddPortToLanBridge autoPortSwitch (lanWorks c) s' (some pEthLink) false =
            some (r',s'') ∧
          members s'' = members s

/-- The records fit their buffers, and where the name occurs in the list, it is a
member; to be taken out, it occurs in no other member, and is not all there is; to be put in
and taken out, it occurs in none, and there is one. -/
def Unmistakable (s : LanStore) (ifname : Text) : BridgeChange → Prop
  | .add => s.brlan0EthMembers.length < psmValueSize ∧ IsToken isBlank ifname ∧
      (ifname <:+: s.brlan0EthMembers → ifname ∈ members s)
  | .remove => s.brlan0EthMembers.length < psmValueSize ∧
      (∀ t ∈ members s, ifname <:+: t → t = ifname) ∧
      (ifname <:+: s.brlan0EthMembers → ∃ t ∈ members s, t ≠ ifname)
  | .addRemove => ifname ∉ members s → s.brlan0EthMembers.length < psmValueSize ∧
      members s ≠ [] ∧ (∀ t ∈ members s, ¬ ifname <:+: t) ∧
      (¬ ifname <:+: s.brlan0EthMembers →
        (s.brlan0EthMembers ++ [' '] ++ ifname).length < psmValueSize ∧
          ∀ t ∈ tokens isBlank ifname, t = ifname)

theorem added_exact_iff (ifname text : Text) :
    (∀ t, t ∈ tokens isBlank (addedMembers ifname text) ↔
        t ∈ tokens isBlank text ∨ t = ifname) ↔
      IsToken isBlank ifname ∧ (ifname <:+: text → ifname ∈ tokens isBlank text) := by
  rw [tokens_addedMembers]
  constructor
  · intro h
    have hmem := (h ifname).mpr (.inr rfl)
    by_cases hin : ifname <:+: text
    · rw [if_pos hin] at hmem
      exact ⟨isToken_of_mem hmem,fun _ => hmem⟩
    · refine ⟨?_,fun hin' => absurd hin' hin⟩
      rw [if_neg hin] at hmem
      rcases List.mem_append.mp hmem with hmem | hmem <;> exact isToken_of_mem hmem
  · rintro ⟨htoken,hmember⟩ t
    by_cases hin : ifname <:+: text
    · rw [if_pos hin]
      exact ⟨.inl,fun h => h.elim id fun heq => heq ▸ hmember hin⟩
    · rw [if_neg hin,tokens_of_token htoken,List.mem_append,List.mem_singleton]

theorem filtered_exact_iff (ifname : Text) (ts : List Text) :
    (ts.filter fun t => ¬ ifname <:+: t) = ts.filter (fun t => t ≠ ifname) ↔
      ∀ t ∈ ts, ifname <:+: t → t = ifname := by
  constructor
  · intro h t hmem hin
    by_contra hne
    have hkept : t ∈ ts.filter fun t => t ≠ ifname := List.mem_filter.mpr ⟨hmem,by simpa using hne⟩
    rw [← h,List.mem_filter] at hkept
    exact absurd hin (by simpa using hkept.2)
  · intro h
    refine List.filter_congr fun t hmem => ?_
    have hiff : ¬ ifname <:+: t ↔ t ≠ ifname :=
      not_congr ⟨h t hmem,fun heq => heq ▸ List.infix_refl t⟩
    simp only [hiff]

theorem removed_exact_iff {ifname text : Text} (ht : text.length < psmValueSize) :
    (∃ text', changedMembers ifname text false = some text' ∧
        tokens isBlank text' = (tokens isBlank text).filter fun t => t ≠ ifname) ↔
      (∀ t ∈ tokens isBlank text, ifname <:+: t → t = ifname) ∧
        (ifname <:+: text → ∃ t ∈ tokens isBlank text, t ≠ ifname) := by
  rw [← filtered_exact_iff]
  by_cases hkept : Removable ifname text
  · obtain ⟨text',hremoved,htokens⟩ := changedMembers_removed ht hkept
    rw [hremoved]
    constructor
    · rintro ⟨text'',heq,hexact⟩
      obtain rfl := Option.some_inj.mp heq
      refine ⟨htokens.symm.trans hexact,fun hin => ?_⟩
      obtain ⟨t,hmem,hnot⟩ := hkept hin
      exact ⟨t,hmem,fun he => hnot (he ▸ List.infix_refl t)⟩
    · rintro ⟨hexact,-⟩
      exact ⟨text',rfl,htokens.trans hexact⟩
  · rw [changedMembers_none ht hkept]
    refine iff_of_false (by simp) ?_
    rintro ⟨hexact,hother⟩
    refine hkept fun hin => ?_
    obtain ⟨t,hmem,hne⟩ := hother hin
    exact ⟨t,hmem,fun hin' => hne ((filtered_exact_iff ifname _).mp hexact t hmem hin')⟩

theorem infix_addedMembers (ifname text : Text) : ifname <:+: addedMembers ifname text := by
  unfold addedMembers
  split
  · assumption
  · exact (List.suffix_append _ _).isInfix

theorem restored_exact_iff {ifname text : Text}
    (ht : (addedMembers ifname text).length < psmValueSize) :
    (∃ text', changedMembers ifname (addedMembers ifname text) false = some text' ∧
        tokens isBlank text' = tokens isBlank text) ↔
      tokens isBlank text ≠ [] ∧ (∀ t ∈ tokens isBlank text, ¬ ifname <:+: t) ∧
        (¬ ifname <:+: text → ∀ t ∈ tokens isBlank ifname, t = ifname) := by
  have hfilter : ((tokens isBlank (addedMembers ifname text)).filter fun t => ¬ ifname <:+: t) =
        tokens isBlank text ↔
      (∀ t ∈ tokens isBlank text, ¬ ifname <:+: t) ∧
        (¬ ifname <:+: text → ∀ t ∈ tokens isBlank ifname, t = ifname) := by
    rw [tokens_addedMembers]
    by_cases hin : ifname <:+: text
    · rw [if_pos hin,List.filter_eq_self]
      simp [hin]
    · have hnone : ∀ t ∈ tokens isBlank text, ¬ ifname <:+: t :=
        fun t hmem hin' => hin (hin'.trans (infix_of_mem hmem))
      have hkept : (tokens isBlank text).filter (fun t => ¬ ifname <:+: t) = tokens isBlank text :=
        List.filter_eq_self.mpr fun t hmem => by simpa using hnone t hmem
      rw [if_neg hin,List.filter_append,hkept,List.append_right_eq_self]
      constructor
      · intro h
        refine ⟨hnone,fun _ t hmem => ?_⟩
        have hin' : ifname <:+: t := by
          simpa using List.filter_eq_nil_iff.mp h t hmem
        exact (infix_of_mem hmem).eq_of_length_le hin'.length_le
      · rintro ⟨-,hself⟩
        refine List.filter_eq_nil_iff.mpr fun t hmem => ?_
        rw [hself hin t hmem]
        simp
  rw [← hfilter]
  by_cases hkept : Removable ifname (addedMembers ifname text)
  · obtain ⟨text',hremoved,htokens⟩ := changedMembers_removed ht hkept
    rw [hremoved]
    constructor
    · rintro ⟨text'',heq,hexact⟩
      obtain rfl := Option.some_inj.mp heq
      refine ⟨?_,htokens.symm.trans hexact⟩
      obtain ⟨t,hmem,hnot⟩ := hkept (infix_addedMembers ifname text)
      rw [← hexact,htokens]
      exact List.ne_nil_of_mem (List.mem_filter.mpr ⟨hmem,by simpa using hnot⟩)
    · rintro ⟨-,hexact⟩
      exact ⟨text',rfl,htokens.trans hexact⟩
  · rw [changedMembers_none ht hkept]
    refine iff_of_false (by simp) ?_
    rintro ⟨hne,hexact⟩
    obtain ⟨t,hmem⟩ := List.exists_mem_of_ne_nil _ hne
    rw [← hexact,List.mem_filter] at hmem
    exact hkept fun _ => ⟨t,hmem.1,by simpa using hmem.2⟩

theorem exists_result_iff {P : LanStore → Prop} (ret : Bool) (s : LanStore) (text : Option Text) :
    (∃ r s', (text.map fun t => (ret,{ s with brlan0EthMembers := t })) = some (r,s') ∧ P s') ↔
      ∃ t, text = some t ∧ P { s with brlan0EthMembers := t } := by
  cases text with
  | none => simp
  | some t => simp

theorem not_exists_result {P : LanStore → Prop} :
    ¬ ∃ r s', (none : Option (Bool × LanStore)) = some (r,s') ∧ P s' := by
  rintro ⟨r,s',h,-⟩
  exact absurd h (by simp)

theorem tokenExact_iff {autoPortSwitch : Bool} (c : Bool) {s : LanStore} {pEthLink : LanPort}
    {ifname : Text} (hname : lanIfname autoPortSwitch s pEthLink = some ifname)
    (change : BridgeChange) :
    TokenExact autoPortSwitch c s pEthLink ifname change ↔ Unmistakable s ifname change := by
  have hcall := ethMgrAddPort_eq c hname
  have hadded : changedMembers ifname s.brlan0EthMembers true =
      some (addedMembers ifname s.brlan0EthMembers) := rfl
  by_cases hlen : s.brlan0EthMembers.length < psmValueSize
  · cases change with
    | add =>
      rw [TokenExact,Unmistakable]
      rw [hcall true,if_pos hlen,exists_result_iff,and_iff_right hlen,hadded]
      simp only [Option.some_inj,exists_eq_left']
      exact added_exact_iff ifname _
    | remove =>
      rw [TokenExact,Unmistakable]
      rw [hcall false,if_pos hlen,exists_result_iff,and_iff_right hlen]
      exact removed_exact_iff hlen
    | addRemove =>
      rw [TokenExact,Unmistakable]
      refine forall_congr' fun _ => ?_
      rw [hcall true,if_pos hlen,exists_result_iff,and_iff_right hlen,hadded]
      simp only [Option.some_inj,exists_eq_left']
      rw [ethMgrAddPort_eq c (s :=
        { s with brlan0EthMembers := addedMembers ifname s.brlan0EthMembers }) hname false]
      by_cases hlen' : (addedMembers ifname s.brlan0EthMembers).length < psmValueSize
      · rw [if_pos hlen',exists_result_iff]
        refine (restored_exact_iff hlen').trans
          (and_congr_right fun _ => and_congr_right fun _ => ?_)
        refine forall_congr' fun hin => (and_iff_right ?_).symm
        rwa [addedMembers,if_neg hin] at hlen'
      · rw [if_neg hlen']
        refine iff_of_false not_exists_result fun h => ?_
        unfold addedMembers at hlen'
        split at hlen'
        · exact hlen' hlen
        · next hin => exact hlen' (h.2.2 hin).1
  · cases change with
    | add =>
      rw [TokenExact,Unmistakable]
      rw [hcall true,if_neg hlen]
      exact iff_of_false not_exists_result fun h => hlen h.1
    | remove =>
      rw [TokenExact,Unmistakable]
      rw [hcall false,if_neg hlen]
      exact iff_of_false not_exists_result fun h => hlen h.1
    | addRemove =>
      rw [TokenExact,Unmistakable]
      refine forall_congr' fun _ => ?_
      rw [hcall true,if_neg hlen]
      exact iff_of_false not_exists_result fun h => hlen h.1

/-- In each mode, and for the one after the other, the tokens are exact precisely when
the name cannot be mistaken. -/
theorem lan_bridge_exact_iff (autoPortSwitch c : Bool) (s : LanStore) (pEthLink : LanPort)
    (change : BridgeChange) :
    (∃ ifname, lanIfname autoPortSwitch s pEthLink = some ifname ∧
        TokenExact autoPortSwitch c s pEthLink ifname change) ↔
      ∃ ifname, lanIfname autoPortSwitch s pEthLink = some ifname ∧
        Unmistakable s ifname change :=
  exists_congr fun _ => and_congr_right fun hname => tokenExact_iff c hname change

/-- `eth1` is taken for a part of `eth10`, and takes it along. -/
theorem removed_name_takes_longer_one :
    let s : LanStore := ⟨"eth1 eth10".toList,none⟩
    ¬ TokenExact false true s ⟨Buf.store "eth1".toList,false⟩ "eth1".toList .remove := by
  intro s h
  have hten := ((tokenExact_iff true (by decide) .remove).mp h).2.1 "eth10".toList
    (by decide) (by decide)
  exact absurd hten (by decide)

end EthAgent
