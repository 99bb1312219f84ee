import EthAgent.WanModeChange

/-!
What the data model shows of the WAN mode, in the non-unified build: a Set of
`SelectedOperationalMode` is answered before the thread that it starts has changed the
HAL, and when this fails the thread takes the mode back.
-/

set_option autoImplicit false

namespace EthAgent
open CString Runs Interleaving

inductive ModeParam where
  | selected
  | lastKnown
  | current
  deriving DecidableEq

/-- 0 with what `pValue` holds then, 1 with the size that is needed, or -1. -/
inductive StringReply where
  | value (pValue : Text)
  | short (ulSize : Nat)
  | refused
  deriving DecidableEq

/-- The name of a mode that is neither DOCSIS nor Ethernet. -/
def ModeParam.otherMode : ModeParam → Text
  | .selected => "Auto".toList
  | .lastKnown => "Unknown".toList
  | .current => "Unknown".toList

def ModeParam.modeName (paramName : ModeParam) (wanMode : Int) : Text :=
  if wanMode = 2 then "DOCSIS".toList
  else if wanMode = 1 then "Ethernet".toList
  else paramName.otherMode

/-- `EthernetWAN_GetParamStringValue` of a mode, from what syscfg has for it if it can be
read. Without a mode two of the parameters leave `pValue` as it is. -/
def ethernetWANGetParamStringValue (paramName : ModeParam) (mode : Option Text)
    (pValue : Text) (ulSize : Nat) : StringReply :=
  let buf := (mode.getD []).take 7
  if buf = [] then .value (if paramName = .lastKnown then "Unknown".toList else pValue)
  else if ulSize ≤ buf.length then .short buf.length
  else
    let name := paramName.modeName (atoi buf)
    if name.length < ulSize then .value name else .refused

def WanMode.text : WanMode → Text
  | .auto => "Auto".toList
  | .eth => "Ethernet".toList
  | .docsis => "DOCSIS".toList

theorem WanMode.text_injective {mode mode' : WanMode} (h : mode.text = mode'.text) :
    mode = mode' := by
  revert h
  cases mode <;> cases mode' <;> decide

/-- A mode that a Set has accepted is shown as the Set has named it. -/
theorem getParam_number (mode : WanMode) (pValue : Text) {ulSize : Nat} (h : 8 < ulSize) :
    ethernetWANGetParamStringValue .selected (some (decimal mode.number)) pValue ulSize =
      .value mode.text := by
  have hlen : mode.text.length < ulSize := by cases mode <;> exact Nat.lt_of_le_of_lt (by decide) h
  have hbuf : (decimal mode.number).take 7 = decimal mode.number := by cases mode <;> decide
  have hshort : ¬ ulSize ≤ (decimal mode.number).length := by
    cases mode <;> exact Nat.not_le_of_lt (Nat.lt_of_le_of_lt (by decide) h)
  have hname : ModeParam.selected.modeName (atoi (decimal mode.number)) = mode.text := by
    cases mode <;> decide
  have hne : decimal mode.number ≠ [] := by cases mode <;> decide
  simp only [ethernetWANGetParamStringValue,Option.getD_some,hbuf,if_neg hne,if_neg hshort,hname,
    if_pos hlen]

/-- A run, with the modes chosen by the Sets that were neither refused nor undone, the
latest first. -/
abbrev ModeRun := (WanConf × List WanEvent) × List WanMode

def chosenAfter (c : WanConf) (chosen : List WanMode) : WanStep → List WanMode
  | .enter _ => chosen
  | .resume k a =>
    match c.threads[k]? with
    | some (.setStore mode) => if a.stored then mode :: chosen else chosen
    | some (.configRunning _) => if a.configured then chosen else chosen.tail
    | _ => chosen

def chooseStep (w : WanProduct) (q : ModeRun) (ev : WanStep) : ModeRun :=
  (stepLog (wanProgram w) q.1 ev,chosenAfter q.1.1 q.2 ev)

/-- A Get of `SelectedOperationalMode` shows the mode chosen last. -/
def ShowsChosen (q : ModeRun) : Prop :=
  ∀ pValue ulSize, 8 < ulSize → ∃ mode, q.2.head? = some mode ∧
    ethernetWANGetParamStringValue .selected (q.1.1.shared.selectedWanMode.map decimal) pValue
      ulSize = .value mode.text

def WanPoint.readsMode (a : WanAnswers) : WanPoint → Bool
  | .setRead _ => a.read
  | _ => true

def WanPoint.writesBack (chosen : List WanMode) (a : WanAnswers) : WanPoint → Bool
  | .configRunning _ => a.configured || a.stored || chosen.tail.head? = chosen.head?
  | _ => true

/-- A Set can read the mode that it is about to replace. -/
def ReadsMode (q : ModeRun) : WanStep → Prop
  | .enter _ => True
  | .resume k a => (q.1.1.threads[k]?).all fun p => p.readsMode a

/-- A failed change can write back the mode before it, or this is the same. -/
def WritesBack (q : ModeRun) : WanStep → Prop
  | .enter _ => True
  | .resume k a => (q.1.1.threads[k]?).all fun p => p.writesBack q.2 a

instance (q : ModeRun) : DecidablePred (ReadsMode q)
  | .enter _ => .isTrue trivial
  | .resume _ _ => inferInstanceAs (Decidable (_ = true))

instance (q : ModeRun) : DecidablePred (WritesBack q)
  | .enter _ => .isTrue trivial
  | .resume _ _ => inferInstanceAs (Decidable (_ = true))

def RemembersBefore (prevSelMode : Nat) (chosen : List WanMode) : Prop :=
  ∃ mode before earlier, chosen = mode :: before :: earlier ∧ prevSelMode = before.number

/-- What a Set or a change under way finds in `PrevSelMode`. -/
def Remembers (prevSelMode : Nat) (chosen : List WanMode) : WanPoint → Prop
  | .setStore _ => ∃ mode earlier, chosen = mode :: earlier ∧ prevSelMode = mode.number
  | .setCompare _ => RemembersBefore prevSelMode chosen
  | .setEnable _ => RemembersBefore prevSelMode chosen
  | .configCreated _ => RemembersBefore prevSelMode chosen
  | .configRunning _ => RemembersBefore prevSelMode chosen
  | _ => True

theorem remembers_of_not_pending {p : WanPoint} (h : p.isPending = false) (prevSelMode : Nat)
    (chosen : List WanMode) : Remembers prevSelMode chosen p := by
  cases p <;> simp_all [Remembers,WanPoint.isPending,WanPoint.isConfig,WanPoint.mayStart]

/-- syscfg has the mode chosen last, and the one thread that may undo it the mode before. -/
structure KeepsChosen (q : ModeRun) : Prop where
  pending : OnePending q.1.1
  selected : ∃ mode earlier, q.2 = mode :: earlier ∧
    q.1.1.shared.selectedWanMode = some mode.number
  remembered : ∀ p ∈ q.1.1.threads, Remembers q.1.1.shared.prevSelMode q.2 p

theorem KeepsChosen.shows {q : ModeRun} (h : KeepsChosen q) : ShowsChosen q := by
  intro pValue ulSize hsize
  obtain ⟨mode,earlier,hchosen,hselected⟩ := h.selected
  refine ⟨mode,by rw [hchosen]; rfl,?_⟩
  rw [hselected]
  exact getParam_number mode pValue hsize

theorem KeepsChosen.enter {q : ModeRun} (h : KeepsChosen q) (w : WanProduct) {pString : Text}
    (hc : BeginsAlone q.1 (.enter pString)) : KeepsChosen (chooseStep w q (.enter pString)) := by
  have ho : outcome (wanProgram w) q.1.1 (.enter pString) =
      some (setSelectedMode q.1.1.shared pString) := rfl
  have hpending := h.pending.enter w hc
  rw [stepLog_some ho] at hpending
  rw [chooseStep,stepLog_some ho]
  refine ⟨hpending,h.selected,fun p hp => ?_⟩
  rcases List.mem_cons.mp hp with rfl | hold
  · trivial
  · exact h.remembered p hold

/-- What the section of a thread that is at `p` leaves: the mode chosen last in syscfg, and
its own thread with what it has to remember. -/
theorem resume_keeps (w : WanProduct) {s : WanControl} {chosen : List WanMode}
    (hselected : ∃ mode earlier, chosen = mode :: earlier ∧ s.selectedWanMode = some mode.number)
    {p : WanPoint} (hp : Remembers s.prevSelMode chosen p) {threads : List WanPoint} {k : Nat}
    (hk : threads[k]? = some p) (a : WanAnswers) (log : List WanEvent)
    (hreads : ReadsMode ((⟨s,threads⟩,log),chosen) (.resume k a))
    (hback : WritesBack ((⟨s,threads⟩,log),chosen) (.resume k a)) :
    (∃ mode earlier, chosenAfter ⟨s,threads⟩ chosen (.resume k a) = mode :: earlier ∧
      (wanResume w s p a).shared.selectedWanMode = some mode.number) ∧
    ∀ p' ∈ (wanResume w s p a).threads, Remembers (wanResume w s p a).shared.prevSelMode
      (chosenAfter ⟨s,threads⟩ chosen (.resume k a)) p' := by
  obtain ⟨mode,earlier,rfl,hmode⟩ := hselected
  simp only [ReadsMode,WritesBack,hk,Option.all_some] at hreads hback
  simp only [chosenAfter,hk]
  cases p with
  | setTest wanOperState pString =>
    by_cases hs : wanOperState = .resetInprogress
    · simp [wanResume,hs,hmode]
    · cases hm : selectedMode w pString <;> simp [wanResume,hs,hm,hmode,Remembers]
  | setRead mode' =>
    have hread : a.read = true := hreads
    simp [wanResume,hmode,hread,Remembers]
  | setStore mode' =>
    obtain ⟨mode₁,earlier₁,heq,hprev⟩ := hp
    obtain ⟨rfl,rfl⟩ := List.cons.inj heq
    cases hst : a.stored with
    | false => simp [wanResume,hst,hmode]
    | true =>
      refine ⟨⟨mode',mode :: earlier,rfl,by simp [wanResume,hst]⟩,fun p' hp' => ?_⟩
      obtain rfl : p' = .setCompare mode' := by simpa [wanResume,hst] using hp'
      exact ⟨mode',mode,earlier,rfl,by simp [wanResume,hst,hprev]⟩
  | setCompare mode' =>
    have hbefore : RemembersBefore s.prevSelMode (mode :: earlier) := hp
    by_cases hc : a.currWanMode = some mode'.number ∨ mode' = .auto <;>
      simp [wanResume,hc,hmode,Remembers,hbefore]
  | setEnable bValue =>
    have hbefore : RemembersBefore s.prevSelMode (mode :: earlier) := hp
    by_cases hc : a.allocated ∧ a.created <;>
      simp [wanResume,configEthWan,hc,hmode,Remembers,hbefore]
  | configCreated bValue =>
    have hbefore : RemembersBefore s.prevSelMode (mode :: earlier) := hp
    simp [wanResume,hmode,Remembers,hbefore]
  | configRunning bValue =>
    obtain ⟨mode₁,before,earlier₁,heq,hprev⟩ := hp
    obtain ⟨rfl,rfl⟩ := List.cons.inj heq
    cases hc : a.configured with
    | true => simp [wanResume,hc,hmode,Remembers]
    | false =>
      -- the thread writes `PrevSelMode` back, or the same mode is there already
      have hstored : a.stored = true ∨ before = mode := by
        simpa [WanPoint.writesBack,hc] using hback
      refine ⟨⟨before,earlier₁,rfl,?_⟩,fun p' hp' => ?_⟩
      · cases hst : a.stored with
        | true => simp [wanResume,hc,hst,hprev]
        | false =>
          obtain rfl := hstored.resolve_left (by simp [hst])
          simp [wanResume,hc,hst,hmode]
      · obtain rfl : p' = .configFinished := by simpa [wanResume,hc] using hp'
        trivial
  | configFinished => simp [wanResume,hmode]

theorem chosenAfter_of_not_pending {c : WanConf} {chosen : List WanMode} {k : Nat}
    {p : WanPoint} (hk : c.threads[k]? = some p) (a : WanAnswers) (hp : p.isPending = false) :
    chosenAfter c chosen (.resume k a) = chosen := by
  simp only [chosenAfter,hk]
  cases p <;> simp_all [WanPoint.isPending,WanPoint.isConfig,WanPoint.mayStart]

theorem KeepsChosen.resume {q : ModeRun} (h : KeepsChosen q) (w : WanProduct) {k : Nat}
    {p : WanPoint} (a : WanAnswers) (hk : q.1.1.threads[k]? = some p)
    (hreads : ReadsMode q (.resume k a)) (hback : WritesBack q (.resume k a)) :
    KeepsChosen (chooseStep w q (.resume k a)) := by
  have ho : outcome (wanProgram w) q.1.1 (.resume k a) = some (wanResume w q.1.1.shared p a) :=
    outcome_resume hk
  obtain ⟨hselected,hown⟩ := resume_keeps w h.selected
    (h.remembered p (List.mem_of_getElem? hk)) hk a q.1.2 hreads hback
  obtain ⟨hidle,-⟩ := wanResume_spec w a (h.pending.marked p (List.mem_of_getElem? hk))
  have hpending := h.pending.resume w a hk
  have hcount := countP_resume (κ := Text) a hk WanPoint.isPending
  rw [stepLog_some ho] at hpending
  rw [chooseStep,stepLog_some ho]
  refine ⟨hpending,hselected,fun p' hp' => ?_⟩
  rcases List.mem_append.mp hp' with hnew | hother
  · exact hown p' hnew
  · cases hp : p.isPending with
    | false =>
      rw [chosenAfter_of_not_pending hk a hp,hidle hp]
      exact h.remembered p' (mem_of_mem_rest hother)
    | true =>
      have hone := h.pending.pending
      rw [if_pos hp] at hcount
      exact remembers_of_not_pending (none_pending (by omega) p' hother) _ _

theorem KeepsChosen.step {q : ModeRun} (h : KeepsChosen q) (w : WanProduct) {ev : WanStep}
    (hc : BeginsAlone q.1 ev ∧ ReadsMode q ev) (hback : WritesBack q ev) :
    KeepsChosen (chooseStep w q ev) := by
  cases ev with
  | enter pString => exact h.enter w hc.1
  | resume k a =>
    cases hk : q.1.1.threads[k]? with
    | none =>
      have ho : outcome (wanProgram w) q.1.1 (.resume k a) = none := by simp [outcome,hk]
      rw [chooseStep,stepLog_none ho,chosenAfter,hk]
      exact h
    | some p => exact h.resume w a hk hc.2 hback

/-- A failed change whose mode cannot be written back leaves the one that has failed. -/
theorem writesBack_of_shows {q : ModeRun} (h : KeepsChosen q) (w : WanProduct) (ev : WanStep)
    (hshows : ShowsChosen (chooseStep w q ev)) : WritesBack q ev := by
  cases ev with
  | enter pString => trivial
  | resume k a =>
    cases hk : q.1.1.threads[k]? with
    | none => simp [WritesBack,hk]
    | some p =>
      simp only [WritesBack,hk,Option.all_some]
      cases p with
      | configRunning bValue =>
        have ho : outcome (wanProgram w) q.1.1 (.resume k a) =
            some (wanResume w q.1.1.shared (.configRunning bValue) a) := outcome_resume hk
        obtain ⟨mode,earlier,hchosen,hselected⟩ := h.selected
        cases hc : a.configured with
        | true => simp [WanPoint.writesBack,hc]
        | false =>
          cases hst : a.stored with
          | true => simp [WanPoint.writesBack,hst]
          | false =>
            obtain ⟨shown,hhead,hget⟩ := hshows [] 9 (by decide)
            rw [chooseStep,stepLog_some ho] at hget hhead
            simp only [wanResume,hc,hst,Bool.false_eq_true,if_false,hselected,Option.map_some,
              getParam_number mode [] (by decide : 8 < 9),StringReply.value.injEq] at hget
            simp only [chosenAfter,hk,hc,Bool.false_eq_true,if_false] at hhead
            have htail : earlier.head? = some shown := by simpa [hchosen] using hhead
            simp [WanPoint.writesBack,hchosen,htail,WanMode.text_injective hget]
      | _ => rfl

/-- As long as no Set begins while another may start a change, a Get shows the mode of the
last Set that was neither refused nor undone, exactly if every failed change can write the
mode before it back. -/
theorem selected_mode_shown_iff (w : WanProduct) {s : WanControl} {mode : WanMode}
    (hs : s.selectedWanMode = some mode.number) {steps : List WanStep}
    (h : Meets (chooseStep w) (fun q ev => BeginsAlone q.1 ev ∧ ReadsMode q ev)
      ((⟨s,[]⟩,[]),[mode]) steps) :
    Always (chooseStep w) ShowsChosen ((⟨s,[]⟩,[]),[mode]) steps ↔
      Meets (chooseStep w) WritesBack ((⟨s,[]⟩,[]),[mode]) steps := by
  have h0 : KeepsChosen ((⟨s,[]⟩,[]),[mode]) :=
    ⟨⟨Nat.zero_le 1,fun _ hp => absurd hp List.not_mem_nil⟩,⟨mode,[],rfl,hs⟩,
      fun _ hp => absurd hp List.not_mem_nil⟩
  exact always_iff_meets_of_meets h0 (fun q ev hq hc hback => hq.step w hc hback)
    (fun _ hq => hq.shows) (fun q ev hq _ hshows => writesBack_of_shows hq w ev hshows) h

def failedChange : List WanStep :=
  .enter "Ethernet".toList :: List.replicate 6 (.resume 0 wanWorks) ++
    [.resume 0 { wanWorks with configured := false },.resume 0 wanWorks]

theorem docsis_shown_again :
    Always (chooseStep anyMode) ShowsChosen ((⟨docsisControl,[]⟩,[]),[.docsis]) failedChange ∧
      (exec (chooseStep anyMode) ((⟨docsisControl,[]⟩,[]),[.docsis]) failedChange).2 =
        [.docsis] :=
  ⟨(selected_mode_shown_iff anyMode rfl (by decide +kernel)).mpr (by decide +kernel),
    by decide +kernel⟩

end EthAgent
