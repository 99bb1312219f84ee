import EthAgent.EthWanMode
import EthAgent.WanModeChange

/-!
A Set of `SelectedOperationalMode` in the unified build: the mode goes to syscfg
first, then `ConfigEthWan` has the HAL changed, and of what was done before a
failure it takes back the mode alone, to what `PrevSelMode` remembers.
-/

set_option autoImplicit false

namespace EthAgent
open CString Runs

structure SelectedWan where
  wanOperState : WanOperState
  prevSelMode : Int
  selectedWanMode : Option Text
  ethWan : EthWanStores
  enable : Bool
  deriving DecidableEq

/-- Whether the steps of a Set succeed, in their order: syscfg is read and written,
the HAL is asked, it is changed and the change stored, syscfg is written back after
a failure, or the HAL asked again after success. -/
structure SelectAnswers where
  read : Bool
  stored : Bool
  getEthWanEnable : Bool
  mode : ModeAnswers
  rolledBack : Bool
  getCfg : Bool

/-- `%lu` of an `int`. -/
def unsignedText (ulongBits : Nat) (n : Int) : Text := decimal (n%2^ulongBits).toNat

/-- `PrevSelMode` once syscfg has been read into 8 bytes, or could not be. -/
def rememberedMode (s : SelectedWan) (read : Bool) : Int :=
  match s.selectedWanMode,read with
  | some mode,true => atoi (mode.take 7)
  | _,_ => s.prevSelMode

/-- `CosaDmlConfigureEthWan`; `CosaDmlEthWanGetCfg` leaves Enable cleared where the
HAL does not answer. -/
def cosaDmlConfigureEthWan (s : SelectedWan) (bEnable : Bool) (a : SelectAnswers) :
    Bool × SelectedWan :=
  let c := ethwanEnableWithoutReboot s.ethWan bEnable a.mode
  if c.1 then (true,{ s with ethWan := c.2, enable := a.getCfg && c.2.halEnable })
  else (false,{ s with ethWan := c.2 })

def configEthWanUnified (ulongBits : Nat) (s : SelectedWan) (bValue : Bool) (a : SelectAnswers) :
    Bool × SelectedWan :=
  if a.getEthWanEnable ∧ s.ethWan.halEnable = bValue then (true,s)
  else
    let c := cosaDmlConfigureEthWan { s with wanOperState := .resetInprogress } bValue a
    let s :=
      if c.1 then c.2
      else if a.rolledBack then
        { c.2 with selectedWanMode := some (unsignedText ulongBits c.2.prevSelMode) }
      else c.2
    (c.1,{ s with wanOperState := .resetCompleted })

def ethernetWANSetParamStringValue (ulongBits : Nat) (w : WanProduct) (s : SelectedWan)
    (pString : Text) (a : SelectAnswers) : Bool × SelectedWan :=
  if s.wanOperState = .resetInprogress then (false,s)
  else
    let s := { s with wanOperState := .none }
    match selectedMode w pString with
    | none => (false,s)
    | some mode =>
      let s := { s with prevSelMode := rememberedMode s a.read }
      if a.stored then
        let s := { s with selectedWanMode := some (decimal mode.number) }
        if mode = .auto then (true,s) else configEthWanUnified ulongBits s (mode = .eth) a
      else (false,s)

/-- A Set that returns FALSE leaves the mode, the HAL and Enable as they were. -/
def RestoredOnFailure (ulongBits : Nat) (w : WanProduct) (s : SelectedWan) (pString : Text)
    (a : SelectAnswers) : Prop :=
  let c := ethernetWANSetParamStringValue ulongBits w s pString a
  c.1 = false → c.2.selectedWanMode = s.selectedWanMode ∧
    c.2.ethWan.halEnable = s.ethWan.halEnable ∧ c.2.enable = s.enable

/-- The Set comes to `CosaDmlConfigureEthWan`, for the mode. -/
structure Configures (w : WanProduct) (s : SelectedWan) (pString : Text) (a : SelectAnswers)
    (mode : WanMode) : Prop where
  idle : s.wanOperState ≠ .resetInprogress
  selected : selectedMode w pString = some mode
  stored : a.stored = true
  manual : mode ≠ .auto
  differs : ¬ (a.getEthWanEnable = true ∧ s.ethWan.halEnable = decide (mode = .eth))

/-- Where the HAL or the storing behind it fails, what is written back is what was
there, or, where it cannot be written back, what was requested was there; and where
the HAL has been changed already, it was as requested. -/
def LosesNothing (ulongBits : Nat) (w : WanProduct) (s : SelectedWan) (pString : Text)
    (a : SelectAnswers) : Prop :=
  ∀ mode, Configures w s pString a mode →
    ¬ (a.mode.setEthWanEnable = true ∧ a.mode.syscfgSetCommit = true) →
    s.selectedWanMode = some (if a.rolledBack then unsignedText ulongBits (rememberedMode s a.read)
      else decimal mode.number) ∧
    (a.mode.setEthWanEnable = true → s.ethWan.halEnable = decide (mode = .eth))

theorem configureEthWan_failed_iff (s : SelectedWan) (bEnable : Bool) (a : SelectAnswers) :
    (cosaDmlConfigureEthWan s bEnable a).1 = false ↔
      ¬ (a.mode.setEthWanEnable = true ∧ a.mode.syscfgSetCommit = true) := by
  obtain ⟨read,stored,get,⟨hal,syscfg⟩,rolledBack,getCfg⟩ := a
  cases hal with
  | false => simp [cosaDmlConfigureEthWan,ethwanEnableWithoutReboot,storeEthWanMode]
  | true =>
    cases syscfg with
    | false => simp [cosaDmlConfigureEthWan,ethwanEnableWithoutReboot,storeEthWanMode]
    | true => simp [cosaDmlConfigureEthWan,ethwanEnableWithoutReboot,storeEthWanMode]

/-- A failure after the HAL has been changed leaves it changed. -/
theorem configureEthWan_of_failed {s : SelectedWan} {bEnable : Bool} {a : SelectAnswers}
    (h : (cosaDmlConfigureEthWan s bEnable a).1 = false) :
    ∃ ethWan, cosaDmlConfigureEthWan s bEnable a = (false,{ s with ethWan := ethWan }) ∧
      ethWan.halEnable = if a.mode.setEthWanEnable then bEnable else s.ethWan.halEnable := by
  have hfail := (configureEthWan_failed_iff s bEnable a).mp h
  obtain ⟨read,stored,get,⟨hal,syscfg⟩,rolledBack,getCfg⟩ := a
  cases hal with
  | false => exact ⟨_,rfl,rfl⟩
  | true =>
    cases syscfg with
    | false => exact ⟨_,rfl,rfl⟩
    | true => exact absurd ⟨rfl,rfl⟩ hfail

theorem configEthWan_of_stored {ulongBits : Nat} {s : SelectedWan} {bValue : Bool}
    {a : SelectAnswers}
    (h : a.mode.setEthWanEnable = true ∧ a.mode.syscfgSetCommit = true) :
    (configEthWanUnified ulongBits s bValue a).1 = true := by
  unfold configEthWanUnified
  split
  · rfl
  · have hfailed := configureEthWan_failed_iff { s with wanOperState := .resetInprogress } bValue a
    simpa [h] using hfailed

/-- What a failing change leaves: the HAL as the failure found it, and the mode
that is remembered or, if it cannot be written, the one requested. -/
theorem configEthWan_of_failed (ulongBits : Nat) {s : SelectedWan} {bValue : Bool}
    {a : SelectAnswers}
    (hdiffers : ¬ (a.getEthWanEnable = true ∧ s.ethWan.halEnable = bValue))
    (h : ¬ (a.mode.setEthWanEnable = true ∧ a.mode.syscfgSetCommit = true)) :
    ∃ ethWan, configEthWanUnified ulongBits s bValue a =
        (false,{ s with
          wanOperState := .resetCompleted
          ethWan := ethWan
          selectedWanMode := if a.rolledBack then some (unsignedText ulongBits s.prevSelMode)
            else s.selectedWanMode }) ∧
      ethWan.halEnable = if a.mode.setEthWanEnable then bValue else s.ethWan.halEnable := by
  obtain ⟨ethWan,heq,hhal⟩ := configureEthWan_of_failed
    ((configureEthWan_failed_iff { s with wanOperState := .resetInprogress } bValue a).mpr h)
  refine ⟨ethWan,?_,hhal⟩
  rw [configEthWanUnified,if_neg hdiffers,heq]
  cases a.rolledBack <;> rfl

theorem restoredOnFailure_iff (ulongBits : Nat) (w : WanProduct) (s : SelectedWan)
    (pString : Text) (a : SelectAnswers) :
    RestoredOnFailure ulongBits w s pString a ↔ LosesNothing ulongBits w s pString a := by
  unfold RestoredOnFailure LosesNothing ethernetWANSetParamStringValue
  by_cases hidle : s.wanOperState = .resetInprogress
  · exact iff_of_true (by simp [hidle]) fun mode hc => absurd hidle hc.idle
  cases hmode : selectedMode w pString with
  | none => exact iff_of_true (by simp [hidle]) fun mode hc => by simp [hc.selected] at hmode
  | some mode =>
    have hsame : ∀ {mode'}, Configures w s pString a mode' → mode' = mode := fun hc =>
      Option.some_inj.mp (hc.selected.symm.trans hmode)
    cases hstored : a.stored with
    | false =>
      exact iff_of_true (by simp [hidle]) fun mode' hc => by simp [hc.stored] at hstored
    | true =>
      by_cases hauto : mode = .auto
      · exact iff_of_true (by simp [hidle,hauto]) fun mode' hc =>
          absurd (hsame hc ▸ hauto) hc.manual
      by_cases hdiffers : a.getEthWanEnable = true ∧ s.ethWan.halEnable = decide (mode = .eth)
      · exact iff_of_true (by simp [hidle,hauto,configEthWanUnified,hdiffers]) fun mode' hc =>
          absurd (hsame hc ▸ hdiffers) hc.differs
      by_cases hfail : a.mode.setEthWanEnable = true ∧ a.mode.syscfgSetCommit = true
      · refine iff_of_true ?_ fun mode' _ h => absurd hfail h
        simp [hidle,hauto,configEthWan_of_stored hfail]
      · have hc : Configures w s pString a mode := ⟨hidle,hmode,hstored,hauto,hdiffers⟩
        obtain ⟨ethWan,heq,hhal⟩ := configEthWan_of_failed ulongBits
          (s := { s with
            wanOperState := .none
            prevSelMode := rememberedMode s a.read
            selectedWanMode := some (decimal mode.number) }) hdiffers hfail
        have hremembered : rememberedMode { s with wanOperState := .none } a.read =
            rememberedMode s a.read := rfl
        simp only [hidle,if_false,if_true,hauto,hremembered,heq,true_implies,and_true]
        constructor
        · rintro ⟨hwritten,hkept⟩ mode' hc' -
          rw [hsame hc']
          refine ⟨?_,fun hset => ?_⟩
          · rw [← hwritten]
            cases a.rolledBack <;> rfl
          · rw [← hkept,hhal,if_pos hset]
        · intro h
          obtain ⟨hwritten,hkept⟩ := h mode hc hfail
          refine ⟨?_,?_⟩
          · rw [hwritten]
            cases a.rolledBack <;> rfl
          · rw [hhal]
            split
            · next hset => exact (hkept hset).symm
            · rfl

theorem unsignedText_of_number (mode : WanMode) {ulongBits : Nat} (h : 2 ≤ ulongBits) :
    unsignedText ulongBits (atoi ((decimal mode.number).take 7)) = decimal mode.number := by
  have hpow : (2 : Int)^2 ≤ 2^ulongBits := pow_le_pow_right₀ (by decide) h
  have hatoi : atoi ((decimal mode.number).take 7) = mode.number := by
    cases mode <;> decide
  have hlt : mode.number < 4 := by
    cases mode <;> decide
  rw [hatoi,unsignedText,Int.emod_eq_of_lt (by omega) (by omega),Int.toNat_natCast]

/-- With the mode that an earlier Set has stored, a failure of the HAL alone is
rolled back as intended. -/
theorem hal_failure_rolled_back {ulongBits : Nat} (hbits : 2 ≤ ulongBits) (w : WanProduct)
    {s : SelectedWan} {mode : WanMode} (hmode : s.selectedWanMode = some (decimal mode.number))
    (pString : Text) {a : SelectAnswers} (hread : a.read = true) (hrolled : a.rolledBack = true)
    (hhal : a.mode.setEthWanEnable = false) : RestoredOnFailure ulongBits w s pString a := by
  rw [restoredOnFailure_iff]
  have hremembered : rememberedMode s a.read = atoi ((decimal mode.number).take 7) := by
    simp [rememberedMode,hmode,hread]
  intro mode' _ _
  refine ⟨?_,fun hset => absurd (hhal.symm.trans hset) Bool.false_ne_true⟩
  rw [if_pos hrolled,hremembered,unsignedText_of_number mode hbits,hmode]

def selectMode (ulongBits : Nat) (w : WanProduct) (s : SelectedWan)
    (set : Text × SelectAnswers) : SelectedWan :=
  (ethernetWANSetParamStringValue ulongBits w s set.1 set.2).2

/-- In every sequence of Sets each failed one has lost nothing exactly if there was
nothing it could lose: the remembered mode alone is put back, and the HAL never. -/
theorem restored_on_failure_iff (ulongBits : Nat) (w : WanProduct) (s : SelectedWan)
    (sets : List (Text × SelectAnswers)) :
    Meets (selectMode ulongBits w)
        (fun s set => RestoredOnFailure ulongBits w s set.1 set.2) s sets ↔
      Meets (selectMode ulongBits w)
        (fun s set => LosesNothing ulongBits w s set.1 set.2) s sets :=
  meets_congr (J := fun _ => True) trivial (fun _ _ _ _ => trivial)
    fun s set _ => restoredOnFailure_iff ulongBits w s set.1 set.2

/-- DOCSIS before, Ethernet requested, and syscfg fails once the HAL has been
enabled: the mode is put back, the HAL stays enabled. -/
theorem failed_set_leaves_hal_enabled :
    ¬ Meets (selectMode 32 ⟨true,true⟩)
      (fun s set => RestoredOnFailure 32 ⟨true,true⟩ s set.1 set.2)
      ⟨.none,0,some "2".toList,⟨false,false,some "false".toList⟩,false⟩
      [("Ethernet".toList,⟨true,true,true,⟨true,false⟩,true,true⟩)] := by
  rintro ⟨h,-⟩
  exact absurd (h (by decide +kernel)).2.1 (by decide +kernel)

end EthAgent
