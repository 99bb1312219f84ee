import EthAgent.Lib.Fgets
import EthAgent.Lib.Runs

/-!
The name of the WAN bridge over the boots of the device. `CosaDmlEthInit` takes it from
`wan_physical_ifname` of syscfg the first time, keeps it in `/nvram/wan_name.txt`, and gives
it back to syscfg from there. The code is that of the platforms without
FEATURE_RDKB_VLAN_MANAGER and AUTOWAN_ENABLE.
-/

set_option autoImplicit false

namespace EthAgent
open CString Runs Fgets

/-- `wan_physical_ifname`, and the content of `/nvram/wan_name.txt`. -/
structure WanNames where
  syscfg : Option Text
  nvram : Option Text

/-- Whether the file can be opened, if it exists and at all, and whether syscfg takes a
value. -/
structure WanNameAnswers where
  opensRead : Bool
  opensWrite : Bool
  committed : Bool

/-- A boot: what it met, the name of the bridge, and `wan_physical_ifname` behind it, which
is copied to `/tmp/wan_name.txt`. -/
structure WanNameBoot where
  before : Option Text
  answers : WanNameAnswers
  wanPhyName : Text
  tmpName : Option Text

def WanNames.outValue (s : WanNames) : Option Text := s.syscfg.map (List.take 19)

def fileValue (content : Text) : Option Text :=
  (fgets 20 content).map fun r => r.1.takeWhile fun c => c ≠ '\r' ∧ c ≠ '\n' ∧ c ≠ nul

def erouter0 : Text := "erouter0".toList

def storeWanName (s : WanNames) (opensWrite : Bool) (outValue : Text) : Text × WanNames :=
  if opensWrite then (outValue,{ s with nvram := some outValue }) else (erouter0,s)

/-- The part of `CosaDmlEthInit` that finds `wanPhyName`. -/
def findWanPhyName (s : WanNames) (a : WanNameAnswers) : Text × WanNames :=
  match s.outValue with
  | none => (erouter0,s)
  | some outValue =>
    match if a.opensRead then s.nvram else none with
    | none => storeWanName s a.opensWrite outValue
    | some content =>
      match fileValue content with
      | none => storeWanName s a.opensWrite outValue
      | some value =>
        if value ≠ outValue then
          if a.committed then (value,{ s with syscfg := some value }) else (erouter0,s)
        else (outValue,s)

/-- A boot, or another component that writes `wan_physical_ifname`. -/
inductive WanNameEvent where
  | boot (a : WanNameAnswers)
  | setSyscfg (value : Option Text)

def wanNameStep (s : WanNames) : WanNameEvent → WanNames × List WanNameBoot
  | .boot a =>
    let found := findWanPhyName s a
    (found.2,[⟨s.syscfg,a,found.1,found.2.syscfg⟩])
  | .setSyscfg value => ({ s with syscfg := value },[])

/-- The name that the file keeps. -/
def WanNames.stored (s : WanNames) : Option Text := s.nvram.bind fileValue

/-- The bridge has the name, and so have the copies of `wan_physical_ifname`; or it has the
name for lack of another. -/
def WanNameBoot.Gives (n : Text) (b : WanNameBoot) : Prop :=
  b.wanPhyName = n ∧ b.tmpName.map (List.take 19) = some n ∨
    b.wanPhyName = erouter0 ∧ (b.before = none ∨ b.answers.committed = false ∨
      b.answers.opensRead = false ∧ b.answers.opensWrite = false)

/-- The file keeps the name, and every boot so far has given it to the bridge. -/
def NameSticks (n : Text) (q : WanNames × List WanNameBoot) : Prop :=
  q.1.stored = some n ∧ ∀ b ∈ q.2, b.Gives n

/-- The file is not taken for missing while syscfg has another name. -/
def FileFound (n : Text) (q : WanNames × List WanNameBoot) : WanNameEvent → Prop
  | .boot a => a.opensRead = false → a.opensWrite = true →
    ∀ outValue ∈ q.1.outValue, outValue = n
  | .setSyscfg _ => True

structure IsWanName (n : Text) : Prop where
  nonempty : n ≠ []
  plain : ∀ c ∈ n, c ≠ '\r' ∧ c ≠ '\n' ∧ c ≠ nul
  fits : n.length ≤ 19

section Names

variable {n : Text} {s : WanNames} {a : WanNameAnswers}

theorem IsWanName.fileValue (h : IsWanName n) : fileValue n = some n := by
  have hline : takeLine 19 n = (n,[]) := takeLine_all (fun c hc => (h.plain c hc).2.1) h.fits
  have hall : ∀ c ∈ n, decide (c ≠ '\r' ∧ c ≠ '\n' ∧ c ≠ nul) = true :=
    fun c hc => decide_eq_true (h.plain c hc)
  rw [EthAgent.fileValue,fgets,if_neg h.nonempty,Option.map_some,hline,
    List.takeWhile_eq_self_iff.mpr hall]

/-- What is read from a file is read back, unless it is empty. -/
theorem isWanName_of_fileValue {content : Text} (h : fileValue content = some n)
    (hne : n ≠ []) : IsWanName n := by
  rw [fileValue,fgets] at h
  split at h
  · exact absurd h (by simp)
  · have heq : (takeLine 19 content).1.takeWhile
        (fun c => decide (c ≠ '\r' ∧ c ≠ '\n' ∧ c ≠ nul)) = n := Option.some_inj.mp h
    refine ⟨hne,fun c hc => ?_,?_⟩
    · rw [← heq] at hc
      simpa using List.mem_takeWhile_imp hc
    · rw [← heq]
      exact (List.takeWhile_sublist _).length_le.trans (length_takeLine_le 19 content)

theorem IsWanName.take (h : IsWanName n) : n.take 19 = n := List.take_of_length_le h.fits

/-- A file that is found gives the name to syscfg and to the bridge, and stays as it is. -/
theorem findWanPhyName_found (hn : IsWanName n) (hstored : s.stored = some n)
    (hread : a.opensRead = true) :
    (findWanPhyName s a).2.stored = some n ∧
      WanNameBoot.Gives n
        ⟨s.syscfg,a,(findWanPhyName s a).1,(findWanPhyName s a).2.syscfg⟩ := by
  obtain ⟨content,hnvram,hvalue⟩ := Option.bind_eq_some_iff.mp hstored
  unfold findWanPhyName
  cases hout : s.outValue with
  | none =>
    have hnone : s.syscfg = none := Option.map_eq_none_iff.mp hout
    exact ⟨hstored,.inr ⟨rfl,.inl hnone⟩⟩
  | some outValue =>
    simp only [hread,if_true,hnvram,hvalue]
    by_cases hsame : n = outValue
    · rw [if_neg (not_not.mpr hsame)]
      rw [← hsame] at hout ⊢
      exact ⟨hstored,.inl ⟨rfl,hout⟩⟩
    · rw [if_pos hsame]
      cases hc : a.committed with
      | true =>
        refine ⟨?_,.inl ⟨rfl,?_⟩⟩
        · rw [if_pos rfl]
          exact hvalue
        · rw [if_pos rfl,Option.map_some,hn.take]
      | false => exact ⟨hstored,.inr ⟨rfl,.inr (.inl hc)⟩⟩

theorem findWanPhyName_missed (hread : a.opensRead = false) {outValue : Text}
    (hout : s.outValue = some outValue) :
    findWanPhyName s a = storeWanName s a.opensWrite outValue := by
  simp only [findWanPhyName,hout,hread,Bool.false_eq_true,if_false]

theorem nameSticks_boot_iff (hn : IsWanName n) {log : List WanNameBoot}
    (h : NameSticks n (s,log)) :
    NameSticks n (logged wanNameStep (s,log) (.boot a)) ↔ FileFound n (s,log) (.boot a) := by
  obtain ⟨hstored,hlog⟩ := h
  have hstep : NameSticks n (logged wanNameStep (s,log) (.boot a)) ↔
      (findWanPhyName s a).2.stored = some n ∧
        WanNameBoot.Gives n
          ⟨s.syscfg,a,(findWanPhyName s a).1,(findWanPhyName s a).2.syscfg⟩ := by
    simp only [NameSticks,logged,wanNameStep,List.forall_mem_append,List.forall_mem_singleton]
    exact and_congr_right fun _ => and_iff_right hlog
  rw [hstep]
  cases hread : a.opensRead with
  | true =>
    refine iff_of_true (findWanPhyName_found hn hstored hread) ?_
    exact fun hfalse => absurd (hread.symm.trans hfalse) (by simp)
  | false =>
    cases hout : s.outValue with
    | none =>
      have hnone : s.syscfg = none := Option.map_eq_none_iff.mp hout
      have hfind : findWanPhyName s a = (erouter0,s) := by simp only [findWanPhyName,hout]
      rw [hfind]
      refine iff_of_true ⟨hstored,.inr ⟨rfl,.inl hnone⟩⟩ fun _ _ outValue hsome => ?_
      exact absurd (hout.symm.trans hsome) (by simp)
    | some outValue =>
      rw [findWanPhyName_missed hread hout]
      cases hwrite : a.opensWrite with
      | false =>
        refine iff_of_true ⟨hstored,.inr ⟨rfl,.inr (.inr ⟨hread,hwrite⟩)⟩⟩ fun _ htrue => ?_
        exact absurd (hwrite.symm.trans htrue) (by simp)
      | true =>
        constructor
        · intro hkept _ _ value hvalue
          obtain rfl : outValue = value := Option.some_inj.mp (hout.symm.trans hvalue)
          obtain ⟨hfile,hgives⟩ := hkept
          have hfile : fileValue outValue = some n := hfile
          rcases hgives with ⟨hname,-⟩ | ⟨hname,-⟩
          · exact hname
          · -- the name for lack of another is a name too, so the file gives it back
            have hname : outValue = erouter0 := hname
            have heq : fileValue erouter0 = some erouter0 := by decide
            rw [hname,heq] at hfile
            exact hname.trans (Option.some_inj.mp hfile)
        · intro hfound
          have hsame : outValue = n := hfound hread hwrite outValue hout
          rw [hsame] at hout ⊢
          exact ⟨hn.fileValue,.inl ⟨rfl,hout⟩⟩

end Names

/-- Along every run of boots and of writes to `wan_physical_ifname`, the file keeps its name
and every boot gives it to the bridge and to syscfg, or falls back for a failure of its own,
exactly as long as no boot takes the file for missing while syscfg has another name. -/
theorem wan_name_sticks_iff {n : Text} {s : WanNames} (hne : n ≠ []) (h : s.stored = some n)
    (events : List WanNameEvent) :
    Always (logged wanNameStep) (NameSticks n) (s,[]) events ↔
      Meets (logged wanNameStep) (FileFound n) (s,[]) events := by
  obtain ⟨content,-,hvalue⟩ := Option.bind_eq_some_iff.mp h
  have hn := isWanName_of_fileValue hvalue hne
  have hstep : ∀ q ev, NameSticks n q →
      (NameSticks n (logged wanNameStep q ev) ↔ FileFound n q ev) := by
    intro q ev hq
    cases ev with
    | boot a => exact nameSticks_boot_iff hn hq
    | setSyscfg value => simpa [NameSticks,logged,wanNameStep,FileFound,WanNames.stored] using hq
  exact always_iff_meets (J := NameSticks n) ⟨h,by simp⟩
    (fun q ev hq hfound => (hstep q ev hq).mpr hfound) (fun _ hq => hq)
    (fun q ev hq hkept => (hstep q ev hq).mp hkept)

/-- syscfg is set to another name between two boots. -/
theorem wan_name_sticks_after_reset :
    Always (logged wanNameStep) (NameSticks "wan0".toList)
      (⟨some "wan0".toList,some "wan0\n".toList⟩,[])
      [.boot ⟨true,true,true⟩,.setSyscfg (some "brWAN".toList),.boot ⟨true,true,true⟩] :=
  (wan_name_sticks_iff (by decide) (by decide) _).mpr
    ⟨fun hfalse => absurd hfalse (by simp),trivial,fun hfalse => absurd hfalse (by simp),trivial⟩

end EthAgent
