import EthAgent.WanTopology

/-!
The WAN interfaces from boot on, for the two products that have commands of their own.
`EthWanBridgeInit` makes the WAN bridge at boot if EthWAN is enabled then, and
`CosaDmlIfaceFinalize` makes or removes it later, both outside bridge mode and without OVS.
On Puma7 `cm0` is a device of its own, and the device with the WAN interface's name is
called `dummy-rf` while the bridge has that name.
-/

set_option autoImplicit false

namespace EthAgent
open CString Runs Bridging

inductive PumaIface where
  | ethwan
  | wan
  | docsis
  | dummyRf
  | lan
  deriving DecidableEq

inductive PumaDevice where
  | ethernet
  | erouter
  | docsis

def dummyRf : Text := "dummy-rf".toList

structure PumaIfaces (ι : Type) where
  ethwanIfname : Text
  wanPhyName : Text
  distinct : [ethwanIfname,wanPhyName,ethwanDocsisInfName,dummyRf,lanBridge].Nodup
  device : PumaDevice → ι

variable {ι : Type}

def PumaIfaces.name (w : PumaIfaces ι) : PumaIface → Text
  | .ethwan => w.ethwanIfname
  | .wan => w.wanPhyName
  | .docsis => ethwanDocsisInfName
  | .dummyRf => dummyRf
  | .lan => lanBridge

/-- The commands of `WanBridgeConfigurationIntelPuma7` that change names, bridges or
states, outside bridge mode and without the mesh backhaul. -/
def wanBridgeConfigurationIntelPuma7 {ν : Type} (name : PumaIface → ν)
    (ethWanEnabled configureBridge : Bool) : List (Command ν) :=
  if ethWanEnabled then
    let bridge : List (Command ν) :=
      if configureBridge then
        [.setDown (name .ethwan),.setDown (name .wan),.rename (name .wan) (name .dummyRf),
          .addbr (name .wan),.addif (name .wan) (name .ethwan),.setUp (name .docsis),
          .addif (name .wan) (name .docsis),.setDown (name .wan),.setUp (name .wan)]
      else [.addif (name .wan) (name .ethwan)]
    .delif (name .lan) (name .ethwan) :: bridge ++ [.setUp (name .ethwan)]
  else
    let bridge : List (Command ν) :=
      if configureBridge then
        [.delif (name .wan) (name .docsis),.setDown (name .wan),.delbr (name .wan),
          .rename (name .dummyRf) (name .wan),.setUp (name .wan)]
      else []
    .delif (name .wan) (name .ethwan) :: .addif (name .lan) (name .ethwan) :: bridge

/-- The commands of `EthWanBridgeInit` on Puma7, where nothing takes the interface out of
the LAN bridge. -/
def ethWanBridgeInitIntelPuma7 {ν : Type} (name : PumaIface → ν) : List (Command ν) :=
  [.setDown (name .ethwan),.setDown (name .wan),.rename (name .wan) (name .dummyRf),
    .addbr (name .wan),.addif (name .wan) (name .ethwan),.addif (name .wan) (name .docsis),
    .setDown (name .wan),.setUp (name .wan),.setUp (name .ethwan)]

/-- The commands of `EthWanBridgeInit` on Broadcom. `vlan_util` does the first removal. -/
def ethWanBridgeInitBcm {ν : Type} (name : Iface → ν) : List (Command ν) :=
  [.setDown (name .ethwan),.delif (name .lan) (name .ethwan),.setDown (name .wan),
    .rename (name .wan) (name .docsis),.addbr (name .wan),.addif (name .wan) (name .ethwan),
    .setUp (name .docsis),.addbr (name .wan),.addif (name .wan) (name .docsis),
    .setDown (name .wan),.setUp (name .wan)]

inductive Product (ι : Type) where
  | bcm (w : WanIfaces ι)
  | intelPuma7 (w : PumaIfaces ι)

/-- The product and how it is built. In a `_RDKB_GLOBAL_PRODUCT_REQ_` build the sysevent
`VlanDiscoverySupport` can leave the bridge to the VLAN manager. -/
structure BridgeBuild (ι : Type) extends BcmBuild where
  product : Product ι
  globalProduct : Bool

def wanBridgeConfiguration (b : BridgeBuild ι) : Bool → Bool → List (Command Text) :=
  match b.product with
  | .bcm w => wanBridgeConfigurationBcm b.toBcmBuild w.name
  | .intelPuma7 w => wanBridgeConfigurationIntelPuma7 w.name

def ethWanBridgeInit : Product ι → List (Command Text)
  | .bcm w => ethWanBridgeInitBcm w.name
  | .intelPuma7 w => ethWanBridgeInitIntelPuma7 w.name

def Product.ethwanIfname : Product ι → Text
  | .bcm w => w.ethwanIfname
  | .intelPuma7 w => w.ethwanIfname

/-- `vlanDiscovery` is `VlanDiscoverySupport` as the step finds it. `addToLanBridge` is the
WAN manager of a unified build, which puts the interface into the LAN bridge. -/
inductive BootedStep where
  | finalize (ethwanEnabled vlanDiscovery : Bool)
  | setLastWanMode (lastWanMode : Nat)
  | restartAgent (vlanDiscovery : Bool)
  | addToLanBridge

/-- The VLAN manager configures the WAN interface. -/
def BridgeBuild.leavesBridge (b : BridgeBuild ι) (vlanDiscovery : Bool) : Bool :=
  b.globalProduct && vlanDiscovery

/-- Whether a finalisation makes or removes the bridge. -/
def BridgeBuild.configures (b : BridgeBuild ι) (lastKnownWanMode : Nat)
    (ethwanEnabled vlanDiscovery : Bool) : Bool :=
  if b.unified then !b.leavesBridge vlanDiscovery
  else needsBridge lastKnownWanMode ethwanEnabled

def ifaceFinalize (b : BridgeBuild ι) (s : WanTopology ι) (ethwanEnabled vlanDiscovery : Bool) :
    WanTopology ι :=
  let configureBridge := b.configures s.lastWanMode ethwanEnabled vlanDiscovery
  { s with
    network := runAll s.network (wanBridgeConfiguration b ethwanEnabled configureBridge)
    finalised := modeOf ethwanEnabled :: s.finalised }

/-- What `CosaDmlEthInit` of an `AUTOWAN_ENABLE` build does to the interfaces. -/
def ethInit (b : BridgeBuild ι) (n : Network Text ι) (ethwanEnabled vlanDiscovery : Bool) :
    Network Text ι :=
  if ethwanEnabled && !b.leavesBridge vlanDiscovery then runAll n (ethWanBridgeInit b.product)
  else n

/-- The interfaces when the agent has started, with `last_wan_mode` as it is stored. -/
def booted (b : BridgeBuild ι) (n : Network Text ι) (lastWanMode : Nat)
    (ethwanEnabled vlanDiscovery : Bool) : WanTopology ι :=
  ⟨ethInit b n ethwanEnabled vlanDiscovery,lastWanMode,[modeOf ethwanEnabled]⟩

/-- An agent that starts again finds EthWAN enabled as the latest call found it. -/
def bootedStep (b : BridgeBuild ι) (s : WanTopology ι) : BootedStep → WanTopology ι
  | .finalize ethwanEnabled vlanDiscovery => ifaceFinalize b s ethwanEnabled vlanDiscovery
  | .setLastWanMode lastWanMode => { s with lastWanMode := lastWanMode }
  | .restartAgent vlanDiscovery =>
    { s with network := ethInit b s.network (currentMode s = .eth) vlanDiscovery }
  | .addToLanBridge =>
    if b.unified then
      { s with network := runAll s.network [.addif lanBridge b.product.ethwanIfname] }
    else s

/-- The interfaces with EthWAN enabled, and disabled. -/
def PumaFinalised (w : PumaIfaces ι) (n : Network Text ι) : Bool → Prop
  | true =>
    (∀ br, MemberOf n w.ethwanIfname br ↔ br = w.wanPhyName) ∧
      ∀ br, MemberOf n ethwanDocsisInfName br ↔ br = w.wanPhyName
  | false =>
    MemberOf n w.ethwanIfname lanBridge ∧ isBridge n w.wanPhyName = false ∧
      (n w.wanPhyName).bind Device.hardware = some (w.device .erouter) ∧
      ∀ br, ¬ MemberOf n ethwanDocsisInfName br

/-- Where the WAN manager puts the interface into the LAN bridge, it may be in none yet. -/
def UnifiedFinalised (w : WanIfaces ι) (n : Network Text ι) : Bool → Prop
  | true => Finalised w n true
  | false =>
    (∀ br, MemberOf n w.ethwanIfname br → br = lanBridge) ∧ isBridge n w.wanPhyName = false ∧
      (n w.wanPhyName).bind Device.hardware = some (w.device .docsis)

def AsAsked (b : BridgeBuild ι) : Network Text ι → Bool → Prop :=
  match b.product with
  | .bcm w => if b.unified then UnifiedFinalised w else Finalised w
  | .intelPuma7 w => PumaFinalised w

/-- The interfaces are as the latest mode asks. -/
def InterfacesAsAsked (b : BridgeBuild ι) (s : WanTopology ι) : Prop :=
  AsAsked b s.network (currentMode s = .eth)

/-- A call that changes the mode finds Ethernet in `last_wan_mode` exactly if Ethernet is
the mode before it; in a unified build it finds the bridge left to the agent. -/
def BridgeLeft (b : BridgeBuild ι) (s : WanTopology ι) : BootedStep → Prop
  | .finalize ethwanEnabled vlanDiscovery =>
    modeOf ethwanEnabled ≠ currentMode s →
      if b.unified then b.leavesBridge vlanDiscovery = false
      else (s.lastWanMode = WanMode.eth.number ↔ currentMode s = .eth)
  | _ => True

instance (b : BridgeBuild ι) (s : WanTopology ι) : DecidablePred (BridgeLeft b s)
  | .finalize _ _ => inferInstanceAs (Decidable (_ → _))
  | .setLastWanMode _ => .isTrue trivial
  | .restartAgent _ => .isTrue trivial
  | .addToLanBridge => .isTrue trivial

/-- The interfaces before the agent: the Ethernet interface in the LAN bridge or in none,
and the WAN device under its own name. -/
def startIfaces (inLan : Bool) (up : Iface → Bool) : Network Iface WanDevice
  | .ethwan => some ⟨some .ethernet,up .ethwan,if inLan then some .lan else none⟩
  | .wan => some ⟨some .docsis,up .wan,none⟩
  | .docsis => none
  | .lan => some ⟨none,up .lan,none⟩

def pumaStartIfaces (inLan : Bool) (up : PumaIface → Bool) : Network PumaIface PumaDevice
  | .ethwan => some ⟨some .ethernet,up .ethwan,if inLan then some .lan else none⟩
  | .wan => some ⟨some .erouter,up .wan,none⟩
  | .docsis => some ⟨some .docsis,up .docsis,none⟩
  | .dummyRf => none
  | .lan => some ⟨none,up .lan,none⟩

def pumaEthIfaces (up : PumaIface → Bool) : Network PumaIface PumaDevice
  | .ethwan => some ⟨some .ethernet,up .ethwan,some .wan⟩
  | .wan => some ⟨none,up .wan,none⟩
  | .docsis => some ⟨some .docsis,up .docsis,some .wan⟩
  | .dummyRf => some ⟨some .erouter,false,none⟩
  | .lan => some ⟨none,up .lan,none⟩

def StartTopology (inLan : Bool) : Product ι → Network Text ι → Prop
  | .bcm w => fun n => ∃ up, Agrees w.name w.device (startIfaces inLan up) n
  | .intelPuma7 w => fun n => ∃ up, Agrees w.name w.device (pumaStartIfaces inLan up) n

def bcmIfaces (ethwan inLan : Bool) (up : Iface → Bool) : Network Iface WanDevice :=
  if ethwan then ethIfaces up else startIfaces inLan up

def pumaIfaces (ethwan : Bool) (up : PumaIface → Bool) : Network PumaIface PumaDevice :=
  if ethwan then pumaEthIfaces up else pumaStartIfaces true up

def ModeTopology (b : BridgeBuild ι) (n : Network Text ι) (ethwan : Bool) : Prop :=
  match b.product with
  | .bcm w => ∃ inLan up, (b.unified || inLan) = true ∧
      Agrees w.name w.device (bcmIfaces ethwan inLan up) n
  | .intelPuma7 w => ∃ up, Agrees w.name w.device (pumaIfaces ethwan up) n

/-- The interface is in the LAN bridge at boot without EthWAN, unless the WAN manager puts
it there, and with EthWAN it is in no bridge where nothing takes it out. -/
def InterfaceFits (b : BridgeBuild ι) (inLan ethwanEnabled : Bool) : Prop :=
  match b.product with
  | .bcm _ => ethwanEnabled = true ∨ b.unified = true ∨ inLan = true
  | .intelPuma7 _ => inLan = !ethwanEnabled

/-- With EthWAN the bridge is left to the agent at boot. -/
def BootFits (b : BridgeBuild ι) (inLan ethwanEnabled vlanDiscovery : Bool) : Prop :=
  InterfaceFits b inLan ethwanEnabled ∧
    (ethwanEnabled = true → b.leavesBridge vlanDiscovery = false)

theorem PumaIfaces.name_injective (w : PumaIfaces ι) : Function.Injective w.name := by
  have h := w.distinct
  simp only [List.nodup_cons,List.mem_cons,List.not_mem_nil,or_false,not_or] at h
  obtain ⟨⟨h₁,h₂,h₃,h₄⟩,⟨h₅,h₆,h₇⟩,⟨h₈,h₉⟩,h₀,-⟩ := h
  intro i j hij
  cases i <;> cases j <;> simp_all [PumaIfaces.name]

theorem wanBridgeConfigurationIntelPuma7_map (w : PumaIfaces ι)
    (ethWanEnabled configureBridge : Bool) :
    wanBridgeConfigurationIntelPuma7 w.name ethWanEnabled configureBridge =
      (wanBridgeConfigurationIntelPuma7 id ethWanEnabled configureBridge).map
        (Command.map w.name) := by
  cases ethWanEnabled <;> cases configureBridge <;> rfl

section devices
variable (b : BcmBuild)

/-- A call for the mode that there is changes no more than the states. -/
theorem bcmIfaces_keep (ethwan configureBridge : Bool) {inLan : Bool}
    (hlan : (b.unified || inLan) = true) (up : Iface → Bool) :
    ∃ up', runAll (bcmIfaces ethwan inLan up)
      (wanBridgeConfigurationBcm b id ethwan configureBridge) = bcmIfaces ethwan inLan up' := by
  obtain ⟨unified,hwSwitching⟩ := b
  cases ethwan with
  | true => exact ethIfaces_enable up configureBridge
  | false =>
    refine ⟨fun
      | .ethwan => !(configureBridge && unified && hwSwitching) && up .ethwan
      | .wan => configureBridge || up .wan
      | k => up k,?_⟩
    funext k
    cases unified <;> cases inLan <;> first
      | exact absurd hlan Bool.false_ne_true
      | cases configureBridge <;> cases hwSwitching <;> cases k <;> rfl

theorem startIfaces_enable (inLan : Bool) (up : Iface → Bool) :
    ∃ up', runAll (startIfaces inLan up) (wanBridgeConfigurationBcm b id true true) =
      ethIfaces up' := by
  refine ⟨fun | .wan => false | .lan => up .lan | _ => true,?_⟩
  funext k
  cases inLan <;> cases k <;> rfl

/-- The interface goes into the LAN bridge, or the WAN manager will put it there. -/
theorem ethIfaces_disable_build (up : Iface → Bool) :
    ∃ up', runAll (ethIfaces up) (wanBridgeConfigurationBcm b id false true) =
      startIfaces (!b.unified) up' := by
  obtain ⟨unified,hwSwitching⟩ := b
  refine ⟨fun
    | .ethwan => !(unified && hwSwitching) && up .ethwan
    | .wan => true
    | k => up k,?_⟩
  funext k
  cases unified <;> cases hwSwitching <;> cases k <;> rfl

theorem bcmIfaces_change (ethwan inLan : Bool) (up : Iface → Bool) :
    ∃ inLan' up', (b.unified || inLan') = true ∧ runAll (bcmIfaces (!ethwan) inLan up)
      (wanBridgeConfigurationBcm b id ethwan true) = bcmIfaces ethwan inLan' up' := by
  cases ethwan with
  | true =>
    obtain ⟨up',hrun⟩ := startIfaces_enable b inLan up
    exact ⟨true,up',Bool.or_true _,hrun⟩
  | false =>
    obtain ⟨up',hrun⟩ := ethIfaces_disable_build b up
    exact ⟨!b.unified,up',Bool.or_not_self _,hrun⟩

end devices

theorem bcmIfaces_init (inLan : Bool) (up : Iface → Bool) :
    ∃ up', runAll (bcmIfaces true inLan up) (ethWanBridgeInitBcm id) =
      bcmIfaces true inLan up' := by
  refine ⟨fun | .ethwan => false | .lan => up .lan | _ => true,?_⟩
  funext k
  cases k <;> rfl

theorem startIfaces_init (inLan : Bool) (up : Iface → Bool) :
    ∃ up', runAll (startIfaces inLan up) (ethWanBridgeInitBcm id) = bcmIfaces true true up' := by
  refine ⟨fun | .ethwan => false | .lan => up .lan | _ => true,?_⟩
  funext k
  cases inLan <;> cases k <;> rfl

/-- The interface joins the LAN bridge only if it is in no bridge. -/
theorem bcmIfaces_addToLan (ethwan inLan : Bool) (up : Iface → Bool) :
    runAll (bcmIfaces ethwan inLan up) [.addif .lan .ethwan] = bcmIfaces ethwan true up := by
  funext k
  cases ethwan <;> cases inLan <;> cases k <;> rfl

theorem pumaIfaces_keep (ethwan configureBridge : Bool) (up : PumaIface → Bool) :
    ∃ up', runAll (pumaIfaces ethwan up)
      (wanBridgeConfigurationIntelPuma7 id ethwan configureBridge) = pumaIfaces ethwan up' := by
  refine ⟨fun
    | .ethwan => ethwan || up .ethwan
    | .wan => configureBridge || up .wan
    | .docsis => ethwan && configureBridge || up .docsis
    | k => up k,?_⟩
  funext k
  cases ethwan <;> cases configureBridge <;> cases k <;> rfl

theorem pumaIfaces_change (ethwan : Bool) (up : PumaIface → Bool) :
    ∃ up', runAll (pumaIfaces (!ethwan) up) (wanBridgeConfigurationIntelPuma7 id ethwan true) =
      pumaIfaces ethwan up' := by
  refine ⟨fun
    | .ethwan => ethwan || up .ethwan
    | .wan => true
    | .docsis => ethwan || up .docsis
    | k => up k,?_⟩
  funext k
  cases ethwan <;> cases k <;> rfl

theorem pumaIfaces_init (up : PumaIface → Bool) :
    ∃ up', runAll (pumaIfaces true up) (ethWanBridgeInitIntelPuma7 id) = pumaIfaces true up' := by
  refine ⟨fun | .ethwan => true | .wan => true | k => up k,?_⟩
  funext k
  cases k <;> rfl

theorem pumaIfaces_addToLan (ethwan : Bool) (up : PumaIface → Bool) :
    runAll (pumaIfaces ethwan up) [.addif .lan .ethwan] = pumaIfaces ethwan up := by
  funext k
  cases ethwan <;> cases k <;> rfl

theorem pumaStartIfaces_init (up : PumaIface → Bool) :
    ∃ up', runAll (pumaStartIfaces false up) (ethWanBridgeInitIntelPuma7 id) =
      pumaIfaces true up' := by
  refine ⟨fun | .ethwan => true | .wan => true | k => up k,?_⟩
  funext k
  cases k <;> rfl

variable {b : BridgeBuild ι} {n : Network Text ι} {s : WanTopology ι}

theorem PumaFinalised.of_eth {w : PumaIfaces ι} {up : PumaIface → Bool}
    (h : Agrees w.name w.device (pumaIfaces true up) n) : PumaFinalised w n true := by
  have hwan : ∀ k, (k = .ethwan ∨ k = .docsis) → ∀ br, MemberOf n (w.name k) br ↔
      br = w.wanPhyName := by
    intro k hk br
    have hmember : ∀ j, MemberOf (pumaIfaces true up) k j ↔ j = .wan := by
      intro j
      rcases hk with rfl | rfl <;> cases j <;> simp [MemberOf,pumaIfaces,pumaEthIfaces,isBridge]
    simp only [h.memberOf_iff,hmember,exists_eq_right]
    exact eq_comm
  exact ⟨hwan .ethwan (.inl rfl),hwan .docsis (.inr rfl)⟩

theorem PumaFinalised.of_start {w : PumaIfaces ι} {up : PumaIface → Bool}
    (h : Agrees w.name w.device (pumaIfaces false up) n) : PumaFinalised w n false := by
  refine ⟨(h.memberOf_iff .ethwan lanBridge).mpr ⟨.lan,rfl,rfl,rfl⟩,h.isBridge_eq .wan,
    h.hardware_eq .wan,?_⟩
  intro br hbr
  obtain ⟨j,-,hj,-⟩ := (h.memberOf_iff .docsis br).mp hbr
  exact absurd hj (Option.some_ne_none j).symm

theorem startIfaces_true (up : Iface → Bool) : startIfaces true up = docsisIfaces up := by
  funext k
  cases k <;> rfl

theorem UnifiedFinalised.of_start {w : WanIfaces ι} {inLan : Bool} {up : Iface → Bool}
    (h : Agrees w.name w.device (startIfaces inLan up) n) : UnifiedFinalised w n false := by
  refine ⟨fun br hbr => ?_,h.isBridge_eq .wan,h.hardware_eq .wan⟩
  obtain ⟨j,rfl,hj,-⟩ := (h.memberOf_iff .ethwan br).mp hbr
  cases inLan with
  | true =>
    obtain rfl : .lan = j := Option.some_inj.mp hj
    rfl
  | false => exact absurd hj (Option.some_ne_none j).symm

theorem asAsked_bcm_true_iff {build : BcmBuild} {w : WanIfaces ι} {globalProduct : Bool} :
    AsAsked ⟨build,.bcm w,globalProduct⟩ n true ↔ Finalised w n true := by
  simp only [AsAsked]
  cases build.unified <;> rfl

theorem ModeTopology.asAsked {ethwan : Bool} (h : ModeTopology b n ethwan) :
    AsAsked b n ethwan := by
  obtain ⟨build,product,globalProduct⟩ := b
  cases product with
  | bcm w =>
    obtain ⟨inLan,up,hlan,h⟩ := h
    cases ethwan with
    | true => exact asAsked_bcm_true_iff.mpr (EthTopology.finalised ⟨up,h⟩)
    | false =>
      simp only [AsAsked]
      cases hunified : build.unified with
      | true => exact .of_start h
      | false =>
        simp only [hunified,Bool.false_or] at hlan
        subst hlan
        exact DocsisTopology.finalised ⟨up,startIfaces_true up ▸ h⟩
  | intelPuma7 w =>
    obtain ⟨up,h⟩ := h
    cases ethwan with
    | true => exact PumaFinalised.of_eth h
    | false => exact PumaFinalised.of_start h

theorem ModeTopology.keep {ethwan : Bool} (h : ModeTopology b n ethwan)
    (configureBridge : Bool) :
    ModeTopology b (runAll n (wanBridgeConfiguration b ethwan configureBridge)) ethwan := by
  obtain ⟨build,product,globalProduct⟩ := b
  cases product with
  | bcm w =>
    obtain ⟨inLan,up,hlan,h⟩ := h
    obtain ⟨up',hrun⟩ := bcmIfaces_keep build ethwan configureBridge hlan up
    exact ⟨inLan,up',hlan,agrees_configure h hrun⟩
  | intelPuma7 w =>
    obtain ⟨up,h⟩ := h
    obtain ⟨up',hrun⟩ := pumaIfaces_keep ethwan configureBridge up
    exact ⟨up',h.program w.name_injective (wanBridgeConfigurationIntelPuma7_map w _ _) hrun⟩

theorem ModeTopology.change {ethwan : Bool} (h : ModeTopology b n !ethwan) :
    ModeTopology b (runAll n (wanBridgeConfiguration b ethwan true)) ethwan := by
  obtain ⟨build,product,globalProduct⟩ := b
  cases product with
  | bcm w =>
    obtain ⟨inLan,up,-,h⟩ := h
    obtain ⟨inLan',up',hlan,hrun⟩ := bcmIfaces_change build ethwan inLan up
    exact ⟨inLan',up',hlan,agrees_configure h hrun⟩
  | intelPuma7 w =>
    obtain ⟨up,h⟩ := h
    obtain ⟨up',hrun⟩ := pumaIfaces_change ethwan up
    exact ⟨up',h.program w.name_injective (wanBridgeConfigurationIntelPuma7_map w _ _) hrun⟩

theorem asAsked_bcm_false {build : BcmBuild} {w : WanIfaces ι} {globalProduct : Bool}
    (h : AsAsked ⟨build,.bcm w,globalProduct⟩ n false) : isBridge n w.wanPhyName = false := by
  simp only [AsAsked] at h
  cases hunified : build.unified with
  | true =>
    simp only [hunified,if_true] at h
    exact h.2.1
  | false =>
    simp only [hunified,Bool.false_eq_true,if_false] at h
    exact h.2.1

/-- Without the bridge part the interface is left in no bridge, or the bridge under the
WAN interface's name. -/
theorem ModeTopology.not_asAsked {ethwan : Bool} (h : ModeTopology b n !ethwan) :
    ¬ AsAsked b (runAll n (wanBridgeConfiguration b ethwan false)) ethwan := by
  obtain ⟨build,product,globalProduct⟩ := b
  cases product with
  | bcm w =>
    obtain ⟨inLan,up,-,h⟩ := h
    have hnext : Agrees w.name w.device _
        (runAll n (wanBridgeConfigurationBcm build w.name ethwan false)) := agrees_configure h rfl
    intro hasked
    cases ethwan with
    | true =>
      have hmember := ((asAsked_bcm_true_iff.mp hasked).1 w.wanPhyName).mpr rfl
      obtain ⟨j,-,hj,-⟩ := (hnext.memberOf_iff .ethwan w.wanPhyName).mp hmember
      cases inLan <;> exact absurd hj (Option.some_ne_none j).symm
    | false =>
      have hbridge := (hnext.isBridge_eq .wan).symm.trans (asAsked_bcm_false hasked)
      obtain ⟨unified,hwSwitching⟩ := build
      cases unified <;> exact Bool.false_ne_true hbridge.symm
  | intelPuma7 w =>
    obtain ⟨up,h⟩ := h
    have hnext := h.program w.name_injective
      (wanBridgeConfigurationIntelPuma7_map w ethwan false) rfl
    cases ethwan with
    | true =>
      rintro ⟨hmember,-⟩
      obtain ⟨j,-,hj,-⟩ := (hnext.memberOf_iff .ethwan w.wanPhyName).mp ((hmember _).mpr rfl)
      exact absurd hj (Option.some_ne_none j).symm
    | false =>
      rintro ⟨-,hbridge,-⟩
      exact Bool.false_ne_true (hbridge.symm.trans (hnext.isBridge_eq .wan))

/-- An agent that starts again finds the WAN bridge there. -/
theorem ModeTopology.ethInit {ethwan : Bool} (h : ModeTopology b n ethwan)
    (vlanDiscovery : Bool) : ModeTopology b (ethInit b n ethwan vlanDiscovery) ethwan := by
  rw [EthAgent.ethInit]
  split
  · next hinit =>
    obtain ⟨rfl,-⟩ := Bool.and_eq_true_iff.mp hinit
    obtain ⟨build,product,globalProduct⟩ := b
    cases product with
    | bcm w =>
      obtain ⟨inLan,up,hlan,h⟩ := h
      obtain ⟨up',hrun⟩ := bcmIfaces_init inLan up
      exact ⟨inLan,up',hlan,h.program w.name_injective rfl hrun⟩
    | intelPuma7 w =>
      obtain ⟨up,h⟩ := h
      obtain ⟨up',hrun⟩ := pumaIfaces_init up
      exact ⟨up',h.program w.name_injective rfl hrun⟩
  · exact h

theorem ModeTopology.addToLan {ethwan : Bool} (h : ModeTopology b n ethwan) :
    ModeTopology b (runAll n [.addif lanBridge b.product.ethwanIfname]) ethwan := by
  obtain ⟨build,product,globalProduct⟩ := b
  cases product with
  | bcm w =>
    obtain ⟨inLan,up,-,h⟩ := h
    have hcommand : [.addif lanBridge w.ethwanIfname] =
        [.addif .lan .ethwan].map (Command.map w.name) := rfl
    exact ⟨true,up,Bool.or_true _,
      h.program w.name_injective hcommand (bcmIfaces_addToLan ethwan inLan up)⟩
  | intelPuma7 w =>
    obtain ⟨up,h⟩ := h
    have hcommand : [.addif lanBridge w.ethwanIfname] =
        [.addif .lan .ethwan].map (Command.map w.name) := rfl
    exact ⟨up,h.program w.name_injective hcommand (pumaIfaces_addToLan ethwan up)⟩

theorem StartTopology.modeTopology {inLan : Bool} (h : StartTopology inLan b.product n)
    {ethwanEnabled vlanDiscovery : Bool} (hfits : BootFits b inLan ethwanEnabled vlanDiscovery) :
    ModeTopology b (EthAgent.ethInit b n ethwanEnabled vlanDiscovery) ethwanEnabled := by
  obtain ⟨hiface,hleft⟩ := hfits
  have hinit : EthAgent.ethInit b n ethwanEnabled vlanDiscovery =
      if ethwanEnabled then runAll n (ethWanBridgeInit b.product) else n := by
    cases ethwanEnabled with
    | true => simp [EthAgent.ethInit,hleft rfl]
    | false => rfl
  rw [hinit]
  obtain ⟨build,product,globalProduct⟩ := b
  cases product with
  | bcm w =>
    obtain ⟨up,h⟩ := h
    cases ethwanEnabled with
    | true =>
      obtain ⟨up',hrun⟩ := startIfaces_init inLan up
      exact ⟨true,up',Bool.or_true _,h.program w.name_injective rfl hrun⟩
    | false =>
      have hlan : build.unified = true ∨ inLan = true := hiface.resolve_left Bool.false_ne_true
      exact ⟨inLan,up,Bool.or_eq_true_iff.mpr hlan,h⟩
  | intelPuma7 w =>
    obtain ⟨up,h⟩ := h
    obtain rfl : inLan = !ethwanEnabled := hiface
    cases ethwanEnabled with
    | true =>
      obtain ⟨up',hrun⟩ := pumaStartIfaces_init up
      exact ⟨up',h.program w.name_injective rfl hrun⟩
    | false => exact ⟨up,h⟩

/-- Where nothing makes the bridge, the interface is not in it. -/
theorem StartTopology.not_asAsked {inLan : Bool} (h : StartTopology inLan b.product n) :
    ¬ AsAsked b n true := by
  obtain ⟨build,product,globalProduct⟩ := b
  intro hasked
  cases product with
  | bcm w =>
    obtain ⟨up,h⟩ := h
    have hmember := ((asAsked_bcm_true_iff.mp hasked).1 w.wanPhyName).mpr rfl
    obtain ⟨j,hj,-,hbridge⟩ := (h.memberOf_iff .ethwan w.wanPhyName).mp hmember
    obtain rfl : j = .wan := w.name_injective hj
    exact Bool.false_ne_true hbridge
  | intelPuma7 w =>
    obtain ⟨up,h⟩ := h
    obtain ⟨j,hj,-,hbridge⟩ := (h.memberOf_iff .ethwan w.wanPhyName).mp ((hasked.1 _).mpr rfl)
    obtain rfl : j = .wan := w.name_injective hj
    exact Bool.false_ne_true hbridge

theorem StartTopology.interfaceFits {inLan : Bool} (h : StartTopology inLan b.product n)
    {ethwanEnabled : Bool} (hasked : AsAsked b
      (if ethwanEnabled then runAll n (ethWanBridgeInit b.product) else n) ethwanEnabled) :
    InterfaceFits b inLan ethwanEnabled := by
  obtain ⟨build,product,globalProduct⟩ := b
  cases product with
  | bcm w =>
    obtain ⟨up,h⟩ := h
    cases ethwanEnabled with
    | true => exact .inl rfl
    | false =>
      cases inLan with
      | true => exact .inr (.inr rfl)
      | false =>
        refine .inr (.inl ?_)
        simp only [AsAsked,Bool.false_eq_true,if_false] at hasked
        by_contra hunified
        rw [if_neg hunified] at hasked
        obtain ⟨j,-,hj,-⟩ := (h.memberOf_iff .ethwan lanBridge).mp hasked.1
        exact absurd hj (Option.some_ne_none j).symm
  | intelPuma7 w =>
    obtain ⟨up,h⟩ := h
    cases ethwanEnabled with
    | true =>
      cases inLan with
      | false => rfl
      | true =>
        -- the interface is a member of the LAN bridge still
        have hprogram : ethWanBridgeInitIntelPuma7 w.name =
            (ethWanBridgeInitIntelPuma7 id).map (Command.map w.name) := rfl
        have hnext := h.program w.name_injective hprogram rfl
        have hlan : w.name .lan = w.name .wan :=
          (hasked.1 lanBridge).mp ((hnext.memberOf_iff .ethwan lanBridge).mpr ⟨.lan,rfl,rfl,rfl⟩)
        exact PumaIface.noConfusion (w.name_injective hlan)
    | false =>
      cases inLan with
      | true => rfl
      | false =>
        obtain ⟨j,-,hj,-⟩ := (h.memberOf_iff .ethwan lanBridge).mp hasked.1
        exact absurd hj (Option.some_ne_none j).symm

theorem StartTopology.fits {inLan : Bool} (h : StartTopology inLan b.product n)
    {ethwanEnabled vlanDiscovery : Bool}
    (hasked : AsAsked b (EthAgent.ethInit b n ethwanEnabled vlanDiscovery) ethwanEnabled) :
    BootFits b inLan ethwanEnabled vlanDiscovery := by
  have hleft : ethwanEnabled = true → b.leavesBridge vlanDiscovery = false := by
    rintro rfl
    by_contra hleaves
    rw [Bool.not_eq_false] at hleaves
    have hinit : EthAgent.ethInit b n true vlanDiscovery = n := by
      simp [EthAgent.ethInit,hleaves]
    rw [hinit] at hasked
    exact h.not_asAsked hasked
  refine ⟨h.interfaceFits ?_,hleft⟩
  cases ethwanEnabled with
  | false => exact hasked
  | true => simpa [EthAgent.ethInit,hleft rfl] using hasked

theorem needsBridge_eq_true_iff (lastKnownWanMode : Nat) (ethwanEnabled : Bool) :
    needsBridge lastKnownWanMode ethwanEnabled = true ↔
      (lastKnownWanMode = WanMode.eth.number ↔ ethwanEnabled = false) := by
  have hmodes : WanMode.docsis.number ≠ WanMode.eth.number := by decide
  unfold needsBridge
  split
  · rename_i hdocsis
    cases ethwanEnabled <;> simp [hdocsis,hmodes]
  · split
    · rename_i heth
      cases ethwanEnabled <;> simp [heth]
    · rename_i heth
      cases ethwanEnabled <;> simp [heth]

theorem modeOf_eq_eth_iff (ethwan : Bool) : modeOf ethwan = .eth ↔ ethwan = true := by
  cases ethwan <;> simp [modeOf]

/-- The interfaces have the topology of the latest mode. -/
def Booted (b : BridgeBuild ι) (s : WanTopology ι) : Prop :=
  ∃ ethwan, currentMode s = modeOf ethwan ∧ ModeTopology b s.network ethwan

theorem Booted.asAsked (h : Booted b s) : InterfacesAsAsked b s := by
  obtain ⟨ethwan,hmode,htop⟩ := h
  have hdecide : decide (currentMode s = .eth) = ethwan := by
    rw [hmode]
    cases ethwan <;> rfl
  rw [InterfacesAsAsked,hdecide]
  exact htop.asAsked

/-- Whether a call that changes the mode has its bridge part. -/
theorem bridgeLeft_finalize_iff {ethwan vlanDiscovery : Bool}
    (hmode : currentMode s = modeOf !ethwan) :
    BridgeLeft b s (.finalize ethwan vlanDiscovery) ↔
      b.configures s.lastWanMode ethwan vlanDiscovery = true := by
  have hchange : modeOf ethwan ≠ currentMode s := by
    rw [hmode]
    cases ethwan <;> decide
  rw [BridgeLeft,BridgeBuild.configures]
  cases b.unified with
  | true => simp [hchange]
  | false =>
    simp only [Bool.false_eq_true,if_false,needsBridge_eq_true_iff,hmode,modeOf_eq_eth_iff,
      Bool.not_eq_true']
    exact ⟨fun h => h (hmode ▸ hchange),fun h _ => h⟩

theorem Booted.step (h : Booted b s) {ev : BootedStep} (hc : BridgeLeft b s ev) :
    Booted b (bootedStep b s ev) := by
  obtain ⟨ethwan,hmode,htop⟩ := h
  cases ev with
  | setLastWanMode lastWanMode => exact ⟨ethwan,hmode,htop⟩
  | restartAgent vlanDiscovery =>
    refine ⟨ethwan,hmode,?_⟩
    have hdecide : decide (currentMode s = .eth) = ethwan := by
      rw [hmode]
      cases ethwan <;> rfl
    rw [bootedStep,hdecide]
    exact htop.ethInit vlanDiscovery
  | addToLanBridge =>
    rw [bootedStep]
    split
    · exact ⟨ethwan,hmode,htop.addToLan⟩
    · exact ⟨ethwan,hmode,htop⟩
  | finalize ethwanEnabled vlanDiscovery =>
    refine ⟨ethwanEnabled,rfl,?_⟩
    by_cases hsame : ethwan = ethwanEnabled
    · rw [hsame] at htop
      exact htop.keep _
    · obtain rfl : ethwan = !ethwanEnabled := Bool.eq_not_of_ne hsame
      rw [bootedStep,ifaceFinalize,(bridgeLeft_finalize_iff hmode).mp hc]
      exact htop.change

/-- A call that goes without the bridge part it needs leaves the interfaces wrong. -/
theorem Booted.fits (h : Booted b s) {ev : BootedStep}
    (hnext : InterfacesAsAsked b (bootedStep b s ev)) : BridgeLeft b s ev := by
  obtain ⟨ethwan,hmode,htop⟩ := h
  cases ev with
  | setLastWanMode _ => trivial
  | restartAgent _ => trivial
  | addToLanBridge => trivial
  | finalize ethwanEnabled vlanDiscovery =>
    by_cases hsame : ethwan = ethwanEnabled
    · intro hchange
      rw [hmode,hsame] at hchange
      exact absurd rfl hchange
    · obtain rfl : ethwan = !ethwanEnabled := Bool.eq_not_of_ne hsame
      rw [bridgeLeft_finalize_iff hmode]
      by_contra hbridge
      have hdecide : decide (modeOf ethwanEnabled = .eth) = ethwanEnabled := by
        cases ethwanEnabled <;> rfl
      refine htop.not_asAsked ?_
      rw [← Bool.eq_false_of_not_eq_true hbridge]
      rwa [InterfacesAsAsked,bootedStep,ifaceFinalize,currentMode,List.headD_cons,hdecide] at hnext

/-- From boot on, with the agent starting again at any time, the interfaces are as asked
in every state exactly if the boot can make them so, and each call that changes the mode
is one that does its bridge part. -/
theorem topology_from_boot_iff (b : BridgeBuild ι) {inLan : Bool} {n : Network Text ι}
    (hn : StartTopology inLan b.product n) (lastWanMode : Nat)
    (ethwanEnabled vlanDiscovery : Bool) (steps : List BootedStep) :
    Always (bootedStep b) (InterfacesAsAsked b)
        (booted b n lastWanMode ethwanEnabled vlanDiscovery) steps ↔
      BootFits b inLan ethwanEnabled vlanDiscovery ∧ Meets (bootedStep b) (BridgeLeft b)
        (booted b n lastWanMode ethwanEnabled vlanDiscovery) steps := by
  have hboot : InterfacesAsAsked b (booted b n lastWanMode ethwanEnabled vlanDiscovery) ↔
      AsAsked b (ethInit b n ethwanEnabled vlanDiscovery) ethwanEnabled := by
    cases ethwanEnabled <;> rfl
  have hrun (hfits : BootFits b inLan ethwanEnabled vlanDiscovery) :
      Always (bootedStep b) (InterfacesAsAsked b)
          (booted b n lastWanMode ethwanEnabled vlanDiscovery) steps ↔
        Meets (bootedStep b) (BridgeLeft b)
          (booted b n lastWanMode ethwanEnabled vlanDiscovery) steps :=
    always_iff_meets (J := Booted b) ⟨ethwanEnabled,rfl,hn.modeTopology hfits⟩
      (fun _ _ h hc => h.step hc) (fun _ h => h.asAsked) (fun _ _ h hnext => h.fits hnext)
  constructor
  · intro h
    have hfits := hn.fits (hboot.mp h.head)
    exact ⟨hfits,(hrun hfits).mp h⟩
  · rintro ⟨hfits,hmeets⟩
    exact (hrun hfits).mpr hmeets

def pumaIfacesOf : PumaIfaces PumaDevice where
  ethwanIfname := "nsgmii0".toList
  wanPhyName := "erouter0".toList
  distinct := by decide
  device := id

/-- `nsgmii0` in no bridge, `erouter0` and `cm0`, all up. -/
def pumaNetwork : Network Text PumaDevice := fun x =>
  if x = "nsgmii0".toList then some ⟨some .ethernet,true,none⟩
  else if x = "erouter0".toList then some ⟨some .erouter,true,none⟩
  else if x = ethwanDocsisInfName then some ⟨some .docsis,true,none⟩
  else if x = lanBridge then some ⟨none,true,none⟩
  else none

def pumaBuild : BridgeBuild PumaDevice := ⟨plainBcm,.intelPuma7 pumaIfacesOf,false⟩

/-- Boot with EthWAN, DOCSIS while `last_wan_mode` is Ethernet, the agent started again,
and Ethernet again. -/
theorem topology_from_boot_puma7 :
    Always (bootedStep pumaBuild) (InterfacesAsAsked pumaBuild)
      (booted pumaBuild pumaNetwork 1 true false)
      [.finalize false false,.restartAgent false,.setLastWanMode 2,.finalize true false] := by
  have hn : StartTopology false pumaBuild.product pumaNetwork :=
    ⟨fun _ => true,fun k => by cases k <;> rfl⟩
  exact (topology_from_boot_iff _ hn 1 true false _).mpr
    ⟨⟨rfl,fun _ => rfl⟩,by decide +kernel⟩

end EthAgent
