import EthAgent.Lib.Bridging
import EthAgent.WanModeChange

/-!
The WAN interfaces after `CosaDmlIfaceFinalize`. With EthWAN the Ethernet interface and
the DOCSIS device are in a bridge which has the name of the WAN interface; without it the
DOCSIS device has that name itself, and the Ethernet interface is in the LAN bridge.
Whether the bridge is made or removed at all is decided from `last_wan_mode`, which the
WAN manager updates later.
-/

set_option autoImplicit false

namespace EthAgent
open CString Runs Bridging

/-- The names that the commands use: `ethwan_ifname`, `wanPhyName`, `cm0` and `brlan0`. -/
inductive Iface where
  | ethwan
  | wan
  | docsis
  | lan
  deriving DecidableEq

inductive WanDevice where
  | ethernet
  | docsis

def ethwanDocsisInfName : Text := "cm0".toList
def lanBridge : Text := "brlan0".toList

structure WanIfaces (ι : Type) where
  ethwanIfname : Text
  wanPhyName : Text
  distinct : [ethwanIfname,wanPhyName,ethwanDocsisInfName,lanBridge].Nodup
  device : WanDevice → ι

variable {ι : Type}

def WanIfaces.name (w : WanIfaces ι) : Iface → Text
  | .ethwan => w.ethwanIfname
  | .wan => w.wanPhyName
  | .docsis => ethwanDocsisInfName
  | .lan => lanBridge

/-- `WAN_MANAGER_UNIFICATION_ENABLED`, where the WAN manager puts the interface into the LAN
bridge; and a product whose switch would pass frames of the interface on, `_XB6_PRODUCT_REQ_`
or `_CBR2_PRODUCT_REQ_` and not `_XB10_PRODUCT_REQ_`. -/
structure BcmBuild where
  unified : Bool
  hwSwitching : Bool

/-- The commands of `WanBridgeConfigurationBcm` that change names, bridges or states,
outside bridge mode and without OVS. -/
def wanBridgeConfigurationBcm {ν : Type} (b : BcmBuild) (name : Iface → ν)
    (ethWanEnabled configureBridge : Bool) : List (Command ν) :=
  if ethWanEnabled then
    let bridge : List (Command ν) :=
      if configureBridge then
        [.setDown (name .ethwan),.setDown (name .wan),.rename (name .wan) (name .docsis),
          .addbr (name .wan),.addif (name .wan) (name .ethwan),.setUp (name .docsis),
          .addif (name .wan) (name .docsis)]
      else [.addif (name .wan) (name .ethwan)]
    .delif (name .lan) (name .ethwan) :: bridge ++ [.setUp (name .ethwan)]
  else
    let join : List (Command ν) :=
      if b.unified then [] else [.addif (name .lan) (name .ethwan)]
    let down : List (Command ν) :=
      if b.unified && b.hwSwitching then [.setDown (name .ethwan)] else []
    let bridge : List (Command ν) :=
      if configureBridge then
        [.delif (name .wan) (name .docsis),.setDown (name .wan),.delbr (name .wan),
          .setDown (name .docsis),.rename (name .docsis) (name .wan),.setUp (name .wan)] ++ down
      else []
    .delif (name .wan) (name .ethwan) :: join ++ bridge

def plainBcm : BcmBuild := ⟨false,false⟩

/-- The network, the syscfg value `last_wan_mode`, and the modes that have been
finalised, the latest first. -/
structure WanTopology (ι : Type) where
  network : Network Text ι
  lastWanMode : Nat
  finalised : List WanMode

inductive TopologyStep where
  | finalize (ethwanEnabled : Bool)
  | updateLastWanMode (k : Nat)

def needsBridge (lastKnownWanMode : Nat) (ethwanEnabled : Bool) : Bool :=
  if lastKnownWanMode = WanMode.docsis.number then ethwanEnabled
  else if lastKnownWanMode = WanMode.eth.number then !ethwanEnabled
  else ethwanEnabled

def modeOf (ethwanEnabled : Bool) : WanMode := if ethwanEnabled then .eth else .docsis

def cosaDmlIfaceFinalize (w : WanIfaces ι) (s : WanTopology ι) (ethwanEnabled : Bool) :
    WanTopology ι :=
  let configureBridge := needsBridge s.lastWanMode ethwanEnabled
  { s with
    network :=
      runAll s.network (wanBridgeConfigurationBcm plainBcm w.name ethwanEnabled configureBridge)
    finalised := modeOf ethwanEnabled :: s.finalised }

def topologyStep (w : WanIfaces ι) (s : WanTopology ι) : TopologyStep → WanTopology ι
  | .finalize ethwanEnabled => cosaDmlIfaceFinalize w s ethwanEnabled
  | .updateLastWanMode k =>
    match s.finalised[k]? with
    | none => s
    | some mode => { s with lastWanMode := mode.number }

/-- The interfaces with EthWAN enabled, and disabled. -/
def Finalised (w : WanIfaces ι) (n : Network Text ι) : Bool → Prop
  | true =>
    (∀ br, MemberOf n w.ethwanIfname br ↔ br = w.wanPhyName) ∧
      ∀ br, MemberOf n ethwanDocsisInfName br ↔ br = w.wanPhyName
  | false =>
    MemberOf n w.ethwanIfname lanBridge ∧ isBridge n w.wanPhyName = false ∧
      (n w.wanPhyName).bind Device.hardware = some (w.device .docsis)

def TopologyFinal (w : WanIfaces ι) (s : WanTopology ι) : Prop :=
  ∀ mode ∈ s.finalised.head?, Finalised w s.network (mode = .eth)

def currentMode (s : WanTopology ι) : WanMode := s.finalised.headD .docsis

/-- A call that changes the mode finds the mode of the call before it in `last_wan_mode`. -/
def LastModeKnown (s : WanTopology ι) : TopologyStep → Prop
  | .finalize ethwanEnabled =>
    modeOf ethwanEnabled ≠ currentMode s → s.lastWanMode = (currentMode s).number
  | .updateLastWanMode _ => True

instance (s : WanTopology ι) : DecidablePred (LastModeKnown s)
  | .finalize _ => inferInstanceAs (Decidable (_ → _))
  | .updateLastWanMode _ => .isTrue trivial

/-- The Ethernet interface is in the LAN bridge, and the DOCSIS device is the WAN
interface. -/
def docsisIfaces (up : Iface → Bool) : Network Iface WanDevice
  | .ethwan => some ⟨some .ethernet,up .ethwan,some .lan⟩
  | .wan => some ⟨some .docsis,up .wan,none⟩
  | .docsis => none
  | .lan => some ⟨none,up .lan,none⟩

def ethIfaces (up : Iface → Bool) : Network Iface WanDevice
  | .ethwan => some ⟨some .ethernet,up .ethwan,some .wan⟩
  | .wan => some ⟨none,up .wan,none⟩
  | .docsis => some ⟨some .docsis,up .docsis,some .wan⟩
  | .lan => some ⟨none,up .lan,none⟩

def DocsisTopology (w : WanIfaces ι) (n : Network Text ι) : Prop :=
  ∃ up, Agrees w.name w.device (docsisIfaces up) n

def EthTopology (w : WanIfaces ι) (n : Network Text ι) : Prop :=
  ∃ up, Agrees w.name w.device (ethIfaces up) n

theorem WanIfaces.name_injective (w : WanIfaces ι) : Function.Injective w.name := by
  have h := w.distinct
  simp only [List.nodup_cons,List.mem_cons,List.not_mem_nil,or_false,not_or] at h
  obtain ⟨⟨h₁,h₂,h₃⟩,⟨h₄,h₅⟩,h₆,-⟩ := h
  intro i j hij
  cases i <;> cases j <;> simp_all [WanIfaces.name]

theorem wanBridgeConfigurationBcm_map (b : BcmBuild) (w : WanIfaces ι)
    (ethWanEnabled configureBridge : Bool) :
    wanBridgeConfigurationBcm b w.name ethWanEnabled configureBridge =
      (wanBridgeConfigurationBcm b id ethWanEnabled configureBridge).map
        (Command.map w.name) := by
  obtain ⟨unified,hwSwitching⟩ := b
  cases ethWanEnabled <;> cases configureBridge <;> cases unified <;> cases hwSwitching <;> rfl

/-- The commands act on the four interfaces as they would without names. -/
theorem agrees_configure {b : BcmBuild} {w : WanIfaces ι} {n : Network Text ι}
    {v v' : Network Iface WanDevice} {ethWanEnabled configureBridge : Bool}
    (h : Agrees w.name w.device v n)
    (hv : runAll v (wanBridgeConfigurationBcm b id ethWanEnabled configureBridge) = v') :
    Agrees w.name w.device v'
      (runAll n (wanBridgeConfigurationBcm b w.name ethWanEnabled configureBridge)) := by
  rw [wanBridgeConfigurationBcm_map,← hv]
  exact h.runAll w.name_injective _

theorem docsisIfaces_enable (up : Iface → Bool) :
    ∃ up', runAll (docsisIfaces up) (wanBridgeConfigurationBcm plainBcm id true true) =
      ethIfaces up' := by
  refine ⟨fun | .wan => false | .lan => up .lan | _ => true,?_⟩
  funext k
  cases k <;> rfl

theorem ethIfaces_disable (up : Iface → Bool) :
    ∃ up', runAll (ethIfaces up) (wanBridgeConfigurationBcm plainBcm id false true) =
      docsisIfaces up' := by
  refine ⟨fun | .wan => true | k => up k,?_⟩
  funext k
  cases k <;> rfl

theorem docsisIfaces_disable (up : Iface → Bool) (configureBridge : Bool) :
    ∃ up', runAll (docsisIfaces up) (wanBridgeConfigurationBcm plainBcm id false configureBridge) =
      docsisIfaces up' := by
  refine ⟨fun | .wan => configureBridge || up .wan | k => up k,?_⟩
  funext k
  cases configureBridge <;> cases k <;> rfl

theorem ethIfaces_enable (up : Iface → Bool) (configureBridge : Bool) :
    ∃ up', runAll (ethIfaces up) (wanBridgeConfigurationBcm plainBcm id true configureBridge) =
      ethIfaces up' := by
  refine ⟨fun
    | .ethwan => true
    | .wan => !configureBridge && up .wan
    | .docsis => configureBridge || up .docsis
    | .lan => up .lan,?_⟩
  funext k
  cases configureBridge <;> cases k <;> rfl

variable {w : WanIfaces ι} {n : Network Text ι} {s : WanTopology ι}

theorem EthTopology.finalised (h : EthTopology w n) : Finalised w n true := by
  obtain ⟨up,h⟩ := h
  have hwan : ∀ k, (k = .ethwan ∨ k = .docsis) → ∀ br, MemberOf n (w.name k) br ↔
      br = w.wanPhyName := by
    intro k hk br
    have hmember : ∀ j, MemberOf (ethIfaces up) k j ↔ j = .wan := by
      intro j
      rcases hk with rfl | rfl <;> cases j <;> simp [MemberOf,ethIfaces,isBridge]
    simp only [h.memberOf_iff,hmember,exists_eq_right]
    exact eq_comm
  exact ⟨hwan .ethwan (.inl rfl),hwan .docsis (.inr rfl)⟩

theorem DocsisTopology.finalised (h : DocsisTopology w n) : Finalised w n false := by
  obtain ⟨up,h⟩ := h
  exact ⟨(h.memberOf_iff .ethwan lanBridge).mpr ⟨.lan,rfl,rfl,rfl⟩,h.isBridge_eq .wan,
    h.hardware_eq .wan⟩

/-- Without its bridge part a call leaves the Ethernet interface in no bridge. -/
theorem DocsisTopology.not_finalised (h : DocsisTopology w n) :
    ¬ Finalised w (runAll n (wanBridgeConfigurationBcm plainBcm w.name true false)) true := by
  obtain ⟨up,h⟩ := h
  rintro ⟨hmember,-⟩
  obtain ⟨j,-,hj,-⟩ := ((agrees_configure h rfl).memberOf_iff .ethwan w.wanPhyName).mp
    ((hmember _).mpr rfl)
  exact absurd hj (Option.some_ne_none j).symm

theorem EthTopology.not_finalised (h : EthTopology w n) :
    ¬ Finalised w (runAll n (wanBridgeConfigurationBcm plainBcm w.name false false)) false := by
  obtain ⟨up,h⟩ := h
  rintro ⟨-,hbridge,-⟩
  have hleft : isBridge (runAll (ethIfaces up)
      (wanBridgeConfigurationBcm plainBcm id false false)) .wan = false :=
    ((agrees_configure h rfl).isBridge_eq .wan).symm.trans hbridge
  exact Bool.false_ne_true hleft.symm

/-- The interfaces are as the current mode asks, and `last_wan_mode` is one of the two
modes. -/
structure TopologyKnown (w : WanIfaces ι) (s : WanTopology ι) : Prop where
  last : s.lastWanMode = WanMode.eth.number ∨ s.lastWanMode = WanMode.docsis.number
  modes : ∀ mode ∈ s.finalised, mode = .eth ∨ mode = .docsis
  current : currentMode s = .eth ∧ EthTopology w s.network ∨
    currentMode s = .docsis ∧ DocsisTopology w s.network

theorem TopologyKnown.final (h : TopologyKnown w s) : TopologyFinal w s := by
  intro mode hmode
  have hcurrent : currentMode s = mode := by
    rw [currentMode,List.headD_eq_head?_getD,Option.mem_def.mp hmode,Option.getD_some]
  rcases h.current with ⟨heth,htop⟩ | ⟨hdocsis,htop⟩
  · rw [← hcurrent,heth]
    exact htop.finalised
  · rw [← hcurrent,hdocsis]
    exact htop.finalised

theorem TopologyKnown.enable (h : TopologyKnown w s)
    (hc : LastModeKnown s (.finalize true)) :
    EthTopology w (topologyStep w s (.finalize true)).network := by
  rcases h.current with ⟨-,up,htop⟩ | ⟨hdocsis,up,htop⟩
  · obtain ⟨up',hrun⟩ := ethIfaces_enable up (needsBridge s.lastWanMode true)
    exact ⟨up',agrees_configure htop hrun⟩
  · have hlast : s.lastWanMode = WanMode.docsis.number := by
      rw [hc (by rw [hdocsis]; decide),hdocsis]
    obtain ⟨up',hrun⟩ := docsisIfaces_enable up
    have hbridge : needsBridge s.lastWanMode true = true := by rw [hlast]; rfl
    rw [topologyStep,cosaDmlIfaceFinalize,hbridge]
    exact ⟨up',agrees_configure htop hrun⟩

theorem TopologyKnown.disable (h : TopologyKnown w s)
    (hc : LastModeKnown s (.finalize false)) :
    DocsisTopology w (topologyStep w s (.finalize false)).network := by
  rcases h.current with ⟨heth,up,htop⟩ | ⟨-,up,htop⟩
  · have hlast : s.lastWanMode = WanMode.eth.number := by
      rw [hc (by rw [heth]; decide),heth]
    obtain ⟨up',hrun⟩ := ethIfaces_disable up
    have hbridge : needsBridge s.lastWanMode false = true := by rw [hlast]; rfl
    rw [topologyStep,cosaDmlIfaceFinalize,hbridge]
    exact ⟨up',agrees_configure htop hrun⟩
  · obtain ⟨up',hrun⟩ := docsisIfaces_disable up (needsBridge s.lastWanMode false)
    exact ⟨up',agrees_configure htop hrun⟩

theorem TopologyKnown.step (h : TopologyKnown w s) {ev : TopologyStep}
    (hc : LastModeKnown s ev) : TopologyKnown w (topologyStep w s ev) := by
  cases ev with
  | finalize ethwanEnabled =>
    have hmodes : ∀ mode ∈ modeOf ethwanEnabled :: s.finalised, mode = .eth ∨ mode = .docsis := by
      refine List.forall_mem_cons.mpr ⟨?_,h.modes⟩
      cases ethwanEnabled
      · exact .inr rfl
      · exact .inl rfl
    refine ⟨h.last,hmodes,?_⟩
    cases ethwanEnabled with
    | true => exact .inl ⟨rfl,h.enable hc⟩
    | false => exact .inr ⟨rfl,h.disable hc⟩
  | updateLastWanMode k =>
    cases hk : s.finalised[k]? with
    | none => simpa only [topologyStep,hk] using h
    | some mode =>
      simp only [topologyStep,hk]
      refine ⟨?_,h.modes,h.current⟩
      rcases h.modes mode (List.mem_of_getElem? hk) with rfl | rfl
      · exact .inl rfl
      · exact .inr rfl

/-- A call that does not know the mode before it skips the bridge part that it needs. -/
theorem TopologyKnown.known (h : TopologyKnown w s) {ev : TopologyStep}
    (hfinal : TopologyFinal w (topologyStep w s ev)) : LastModeKnown s ev := by
  cases ev with
  | updateLastWanMode k => trivial
  | finalize ethwanEnabled =>
    intro hchange
    have hnow := hfinal _ rfl
    rcases h.current with ⟨heth,htop⟩ | ⟨hdocsis,htop⟩
    · cases ethwanEnabled with
      | true => exact absurd heth.symm hchange
      | false =>
        rw [heth]
        refine h.last.resolve_right fun hlast => htop.not_finalised ?_
        have hbridge : needsBridge s.lastWanMode false = false := by rw [hlast]; rfl
        rw [topologyStep,cosaDmlIfaceFinalize,hbridge] at hnow
        exact hnow
    · cases ethwanEnabled with
      | false => exact absurd hdocsis.symm hchange
      | true =>
        rw [hdocsis]
        refine h.last.resolve_left fun hlast => htop.not_finalised ?_
        have hbridge : needsBridge s.lastWanMode true = false := by rw [hlast]; rfl
        rw [topologyStep,cosaDmlIfaceFinalize,hbridge] at hnow
        exact hnow

/-- From the DOCSIS topology on, the interfaces are as asked after each call exactly if
each call that changes the mode finds the mode before it in `last_wan_mode`. -/
theorem topology_final_iff {n : Network Text ι} (hn : DocsisTopology w n)
    (steps : List TopologyStep) :
    Always (topologyStep w) (TopologyFinal w) ⟨n,WanMode.docsis.number,[]⟩ steps ↔
      Meets (topologyStep w) LastModeKnown ⟨n,WanMode.docsis.number,[]⟩ steps :=
  always_iff_meets (J := TopologyKnown w)
    ⟨.inr rfl,fun _ h => absurd h List.not_mem_nil,.inr ⟨rfl,hn⟩⟩ (fun _ _ h hc => h.step hc)
    (fun _ h => h.final) (fun _ _ h hfinal => h.known hfinal)

def wanIfaces : WanIfaces WanDevice where
  ethwanIfname := "eth3".toList
  wanPhyName := "erouter0".toList
  distinct := by decide
  device := id

def docsisNetwork : Network Text WanDevice := fun x =>
  if x = "eth3".toList then some ⟨some .ethernet,true,some lanBridge⟩
  else if x = "erouter0".toList then some ⟨some .docsis,true,none⟩
  else if x = lanBridge then some ⟨none,true,none⟩
  else if x = "wl0".toList then some ⟨some .ethernet,true,some lanBridge⟩
  else none

theorem docsisNetwork_topology : DocsisTopology wanIfaces docsisNetwork := by
  refine ⟨fun _ => true,fun k => ?_⟩
  cases k <;> rfl

theorem topology_final_updated :
    Always (topologyStep wanIfaces) (TopologyFinal wanIfaces)
      ⟨docsisNetwork,WanMode.docsis.number,[]⟩
      [.finalize true,.updateLastWanMode 0,.finalize false] :=
  (topology_final_iff docsisNetwork_topology _).mpr (by decide +kernel)

/-- The WAN manager has not stored the first mode when the second call comes. -/
theorem late_update_leaves_bridge :
    ¬ Always (topologyStep wanIfaces) (TopologyFinal wanIfaces)
        ⟨docsisNetwork,WanMode.docsis.number,[]⟩ [.finalize true,.finalize false] := by
  intro h
  obtain ⟨-,hbridge,-⟩ := h.last .docsis rfl
  exact absurd hbridge (by decide +kernel)

end EthAgent
