import EthAgent.PortMapping

/-!
The link types of `g_linktype_map`, which `CosaUtilGetLinkTypeFromPath` finds by a path
that occurs in its argument.
-/

set_option autoImplicit false

namespace EthAgent
open CString Tokens

/-- `COSA_DML_LINK_TYPE`. No enumerator has the 0 of a zeroed entry, `unset`. -/
inductive LinkType where
  | unset
  | eth
  | ethLink
  | ethVlan
  | usb
  | hpna
  | moca
  | homePlug
  | upa
  | wiFiSsid
  | bridge
  | ppp
  | docsis
  | last
  deriving DecidableEq

/-- `LINKTYPE_MAP_T`; `none` is NULL. -/
structure LinktypeMap where
  linkTypePath : Option Text
  linkTypeStr : Option Text
  linkType : LinkType
  deriving DecidableEq

def linktypeEntry (linkTypePath linkTypeStr : String) (linkType : LinkType) : LinktypeMap :=
  ⟨some linkTypePath.toList,some linkTypeStr.toList,linkType⟩

def zeroedEntry : LinktypeMap := ⟨none,none,.unset⟩

/-- The initialisers, without MoCA under `NO_MOCA_FEATURE_SUPPORT`. -/
def linktypeInitializers (noMocaFeatureSupport : Bool) : List LinktypeMap :=
  [linktypeEntry "Device.Ethernet.Interface." "Ethernet" .eth,
    linktypeEntry "Device.Ethernet.Link." "EthLink" .ethLink,
    linktypeEntry "Device.Ethernet.VLANTermination." "Ethernet.VLANTermination" .ethVlan,
    linktypeEntry "Device.USB.Interface." "USB" .usb,
    linktypeEntry "Device.HPNA.Interface." "HPNA" .hpna] ++
  (if noMocaFeatureSupport then [] else [linktypeEntry "Device.MoCA.Interface." "MoCA" .moca]) ++
  [linktypeEntry "Device.HomePlug.Interface." "HomePlug" .homePlug,
    linktypeEntry "Device.UPA.Interface." "UPA" .upa,
    linktypeEntry "Device.WiFi.SSID." "WiFi" .wiFiSsid,
    linktypeEntry "Device.Bridging.Bridge." "Bridge" .bridge,
    linktypeEntry "Device.PPP.Interface." "PPP" .ppp,
    linktypeEntry "DOCSIS" "DOCSIS" .docsis]

/-- `COSA_DML_LINK_TYPE_TOTAL`, the value of `last`. -/
def linkTypeTotal : Nat := LinkType.last.ctorIdx

/-- `g_linktype_map`: the entries without an initialiser are zeroed. -/
def linktypeMap (noMocaFeatureSupport : Bool) : List LinktypeMap :=
  linktypeInitializers noMocaFeatureSupport ++
    List.replicate (linkTypeTotal-(linktypeInitializers noMocaFeatureSupport).length) zeroedEntry

def cosaUtilGetLinkTypePath (noMocaFeatureSupport : Bool) (linkType : LinkType) : Option Text :=
  ((linktypeMap noMocaFeatureSupport).find? fun e => e.linkType = linkType).bind (·.linkTypePath)

/-- The loop of `CosaUtilGetLinkTypeFromPath`; `none` is a `strstr` for NULL. -/
def linkTypeFrom (pLinkTypePath : Text) : List LinktypeMap → Option LinkType
  | [] => some .last
  | e :: rest => e.linkTypePath.bind fun linkTypePath =>
      if (strstr linkTypePath pLinkTypePath).isSome then some e.linkType
      else linkTypeFrom pLinkTypePath rest

def cosaUtilGetLinkTypeFromPath (noMocaFeatureSupport : Bool) (pLinkTypePath : Text) :
    Option LinkType :=
  linkTypeFrom pLinkTypePath (linktypeMap noMocaFeatureSupport)

/-- The loop of `CosaUtilGetStrFromLinkTypePath`, which passes over NULL. -/
def linkTypeStrFrom (pLinkTypePath : Text) : List LinktypeMap → Option Text
  | [] => none
  | e :: rest =>
    match e.linkTypePath with
    | none => linkTypeStrFrom pLinkTypePath rest
    | some linkTypePath =>
      if (strstr linkTypePath pLinkTypePath).isSome then e.linkTypeStr
      else linkTypeStrFrom pLinkTypePath rest

def cosaUtilGetStrFromLinkTypePath (noMocaFeatureSupport : Bool) (pLinkTypePath : Text) :
    Option Text :=
  linkTypeStrFrom pLinkTypePath (linktypeMap noMocaFeatureSupport)

def LinktypeMap.OccursIn (e : LinktypeMap) (pLinkTypePath : Text) : Prop :=
  ∃ linkTypePath ∈ e.linkTypePath, linkTypePath <:+: pLinkTypePath

/-- The type of an entry whose path occurs is returned, or `last` where there is none. -/
def Classifies (noMocaFeatureSupport : Bool) (pLinkTypePath : Text) : Prop :=
  let found := cosaUtilGetLinkTypeFromPath noMocaFeatureSupport pLinkTypePath
  (∃ e ∈ linktypeInitializers noMocaFeatureSupport, e.OccursIn pLinkTypePath ∧
      found = some e.linkType) ∨
    (∀ e ∈ linktypeInitializers noMocaFeatureSupport, ¬ e.OccursIn pLinkTypePath) ∧
      found = some .last

section Table

theorem linktypeMap_zeroed (b : Bool) :
    ∃ n, linktypeMap b = linktypeInitializers b ++ zeroedEntry :: List.replicate n zeroedEntry := by
  have hroom : linkTypeTotal-(linktypeInitializers b).length ≠ 0 := by
    cases b <;> decide
  obtain ⟨n,hn⟩ := Nat.exists_eq_succ_of_ne_zero hroom
  exact ⟨n,by rw [linktypeMap,hn]; rfl⟩

theorem linktypeInitializers_sublist (b : Bool) :
    (linktypeInitializers b).Sublist (linktypeInitializers false) := by
  refine ((List.Sublist.refl _).append ?_).append (List.Sublist.refl _)
  cases b with
  | false => exact List.Sublist.refl _
  | true => exact List.nil_sublist _

theorem linktypePath_ends : ∀ e ∈ linktypeInitializers false,
    (e.linkTypePath.bind List.getLast?).map Char.isDigit = some false := by
  decide +kernel

theorem exists_linktypePath (b : Bool) {e : LinktypeMap} (he : e ∈ linktypeInitializers b) :
    ∃ p c, e.linkTypePath = some p ∧ p.getLast? = some c ∧ c.isDigit = false := by
  have hends := linktypePath_ends e ((linktypeInitializers_sublist b).subset he)
  obtain ⟨c,hlast,hc⟩ := Option.map_eq_some_iff.mp hends
  obtain ⟨p,hp,hlast⟩ := Option.bind_eq_some_iff.mp hlast
  exact ⟨p,c,hp,hlast,hc⟩

theorem linktypePaths_apart (b : Bool) : (linktypeInitializers b).Pairwise fun e f =>
    ∀ p ∈ e.linkTypePath, ∀ q ∈ f.linkTypePath, ¬ p <:+: q :=
  List.Pairwise.sublist (linktypeInitializers_sublist b) (by decide +kernel)

theorem cosaUtilGetLinkTypePath_eq (b : Bool) : ∀ e ∈ linktypeInitializers b,
    cosaUtilGetLinkTypePath b e.linkType = e.linkTypePath := by
  cases b <;> decide +kernel

end Table

section Search

theorem linkTypeFrom_cons {e : LinktypeMap} {p : Text} (hp : e.linkTypePath = some p) (s : Text)
    (rest : List LinktypeMap) :
    (e.OccursIn s ∧ linkTypeFrom s (e :: rest) = some e.linkType) ∨
      ¬ e.OccursIn s ∧ linkTypeFrom s (e :: rest) = linkTypeFrom s rest := by
  have hoccurs : e.OccursIn s ↔ p <:+: s := by simp [LinktypeMap.OccursIn,hp]
  rw [linkTypeFrom,hp,Option.bind_some,hoccurs]
  by_cases h : p <:+: s
  · exact .inl ⟨h,if_pos ((strstr_isSome_iff p s).mpr h)⟩
  · exact .inr ⟨h,if_neg fun hstr => h ((strstr_isSome_iff p s).mp hstr)⟩

theorem linkTypeFrom_append {l : List LinktypeMap} (hl : ∀ e ∈ l, e.linkTypePath.isSome)
    (s : Text) (rest : List LinktypeMap) :
    (∃ e ∈ l, e.OccursIn s ∧ linkTypeFrom s (l ++ rest) = some e.linkType) ∨
      (∀ e ∈ l, ¬ e.OccursIn s) ∧ linkTypeFrom s (l ++ rest) = linkTypeFrom s rest := by
  induction l with
  | nil => exact .inr ⟨nofun,rfl⟩
  | cons e l ih =>
    obtain ⟨p,hp⟩ := Option.isSome_iff_exists.mp (hl e List.mem_cons_self)
    rcases linkTypeFrom_cons hp s (l ++ rest) with ⟨hoccurs,hfound⟩ | ⟨hnot,hpassed⟩
    · exact .inl ⟨e,List.mem_cons_self,hoccurs,hfound⟩
    rw [List.cons_append,hpassed]
    rcases ih fun f hf => hl f (List.mem_cons_of_mem e hf) with ⟨f,hf,hfound⟩ | ⟨hnone,hend⟩
    · exact .inl ⟨f,List.mem_cons_of_mem e hf,hfound⟩
    · exact .inr ⟨List.forall_mem_cons.mpr ⟨hnot,hnone⟩,hend⟩

/-- A NULL ends the search with no answer. -/
theorem cosaUtilGetLinkTypeFromPath_cases (b : Bool) (s : Text) :
    (∃ e ∈ linktypeInitializers b, e.OccursIn s ∧
        cosaUtilGetLinkTypeFromPath b s = some e.linkType) ∨
      (∀ e ∈ linktypeInitializers b, ¬ e.OccursIn s) ∧ cosaUtilGetLinkTypeFromPath b s = none := by
  obtain ⟨n,hn⟩ := linktypeMap_zeroed b
  have hpaths : ∀ e ∈ linktypeInitializers b, e.linkTypePath.isSome := by
    intro e he
    obtain ⟨p,-,hp,-⟩ := exists_linktypePath b he
    rw [hp]
    rfl
  rw [cosaUtilGetLinkTypeFromPath,hn]
  exact linkTypeFrom_append hpaths s _

theorem classifies_iff (b : Bool) (s : Text) :
    Classifies b s ↔ ∃ e ∈ linktypeInitializers b, e.OccursIn s := by
  rw [Classifies]
  rcases cosaUtilGetLinkTypeFromPath_cases b s with ⟨e,he,hoccurs,hfound⟩ | ⟨hnone,hnull⟩
  · exact ⟨fun _ => ⟨e,he,hoccurs⟩,fun _ => .inl ⟨e,he,hoccurs,hfound⟩⟩
  · rw [hnull]
    constructor
    · rintro (⟨e,-,-,hfound⟩ | ⟨-,hlast⟩)
      · cases hfound
      · cases hlast
    · rintro ⟨e,he,hoccurs⟩
      exact absurd hoccurs (hnone e he)

end Search

section RoundTrip

theorem not_occursIn_digits (b : Bool) {before after : List LinktypeMap} {e f : LinktypeMap}
    (hsplit : linktypeInitializers b = before ++ e :: after) (hf : f ∈ before) {path : Text}
    (hpath : e.linkTypePath = some path) (n : Nat) : ¬ f.OccursIn (path ++ decimal n) := by
  rintro ⟨p,hp,hoccurs⟩
  have hmem : f ∈ linktypeInitializers b := by
    rw [hsplit]
    exact List.mem_append_left _ hf
  obtain ⟨q,c,hq,hlast,hc⟩ := exists_linktypePath b hmem
  obtain rfl := Option.some_inj.mp (hq.symm.trans hp)
  have hapart := linktypePaths_apart b
  rw [hsplit,List.pairwise_append] at hapart
  refine hapart.2.2 f hf e List.mem_cons_self q hp path hpath ?_
  refine infix_of_infix_append hlast (fun hdigit => ?_) hoccurs
  rw [isDigit_of_mem_decimal hdigit] at hc
  cases hc

theorem linkType_round_trip (b : Bool) {e : LinktypeMap} (he : e ∈ linktypeInitializers b)
    (n : Nat) : ∃ path, cosaUtilGetLinkTypePath b e.linkType = some path ∧
      cosaUtilGetLinkTypeFromPath b (path ++ decimal n) = some e.linkType := by
  obtain ⟨path,-,hpath,-⟩ := exists_linktypePath b he
  obtain ⟨before,after,hsplit⟩ := List.append_of_mem he
  obtain ⟨k,hk⟩ := linktypeMap_zeroed b
  refine ⟨path,(cosaUtilGetLinkTypePath_eq b e he).trans hpath,?_⟩
  have hbefore : ∀ f ∈ before, f.linkTypePath.isSome := by
    intro f hf
    obtain ⟨p,-,hp,-⟩ := exists_linktypePath b (hsplit ▸ List.mem_append_left _ hf)
    rw [hp]
    rfl
  rw [cosaUtilGetLinkTypeFromPath,hk,hsplit,List.append_assoc]
  rcases linkTypeFrom_append hbefore (path ++ decimal n) _ with ⟨f,hf,hoccurs,-⟩ | ⟨-,hpassed⟩
  · exact absurd hoccurs (not_occursIn_digits b hsplit hf hpath n)
  rw [hpassed]
  rcases linkTypeFrom_cons hpath (path ++ decimal n) _ with ⟨-,hfound⟩ | ⟨hnot,-⟩
  · exact hfound
  · exact absurd ⟨path,hpath,(List.prefix_append path _).isInfix⟩ hnot

end RoundTrip

section Guarded

theorem linkTypeStrFrom_eq_none_iff (s : Text) {l : List LinktypeMap}
    (hstr : ∀ e ∈ l, e.linkTypePath.isSome = e.linkTypeStr.isSome) :
    linkTypeStrFrom s l = none ↔ ∀ e ∈ l, ¬ e.OccursIn s := by
  induction l with
  | nil => exact ⟨fun _ => nofun,fun _ => rfl⟩
  | cons e l ih =>
    have hrest := ih fun f hf => hstr f (List.mem_cons_of_mem e hf)
    rw [linkTypeStrFrom,List.forall_mem_cons,← hrest,LinktypeMap.OccursIn]
    cases hp : e.linkTypePath with
    | none => simp
    | some p =>
      obtain ⟨name,hname⟩ := Option.isSome_iff_exists.mp
        ((hstr e List.mem_cons_self).symm.trans (congrArg Option.isSome hp))
      simp only [hname,strstr_isSome_iff]
      by_cases hoccurs : p <:+: s <;> simp [hoccurs]

/-- The sibling that passes over NULL has an answer for every string. -/
theorem cosaUtilGetStrFromLinkTypePath_eq_none_iff (b : Bool) (s : Text) :
    cosaUtilGetStrFromLinkTypePath b s = none ↔ cosaUtilGetLinkTypeFromPath b s = none := by
  have hstr : ∀ e ∈ linktypeMap b, e.linkTypePath.isSome = e.linkTypeStr.isSome := by
    cases b <;> decide +kernel
  obtain ⟨n,hn⟩ := linktypeMap_zeroed b
  rw [cosaUtilGetStrFromLinkTypePath,linkTypeStrFrom_eq_none_iff s hstr]
  rcases cosaUtilGetLinkTypeFromPath_cases b s with ⟨e,he,hoccurs,hfound⟩ | ⟨hnone,hnull⟩
  · refine iff_of_false (fun h => h e ?_ hoccurs) (by rw [hfound]; exact Option.some_ne_none _)
    rw [hn]
    exact List.mem_append_left _ he
  · refine iff_of_true (fun e he => ?_) hnull
    rw [hn] at he
    rcases List.mem_append.mp he with he | he
    · exact hnone e he
    · have hzeroed : e = zeroedEntry :=
        (List.mem_cons.mp he).elim id List.eq_of_mem_replicate
      rw [hzeroed]
      rintro ⟨p,hp,-⟩
      cases hp

end Guarded

/-- A string is classified when a path occurs in it, and only then; each type is
classified back from its path. -/
theorem linkTypes_classified_iff (noMocaFeatureSupport : Bool) :
    (∀ pLinkTypePath, Classifies noMocaFeatureSupport pLinkTypePath ↔
      ∃ e ∈ linktypeInitializers noMocaFeatureSupport, e.OccursIn pLinkTypePath) ∧
    ∀ e ∈ linktypeInitializers noMocaFeatureSupport, ∀ n, ∃ path,
      cosaUtilGetLinkTypePath noMocaFeatureSupport e.linkType = some path ∧
        cosaUtilGetLinkTypeFromPath noMocaFeatureSupport (path ++ decimal n) = some e.linkType :=
  ⟨classifies_iff noMocaFeatureSupport,fun _ he n => linkType_round_trip _ he n⟩

theorem linkType_search_for_null : ¬ Classifies false "Device.IP.Interface.1".toList := by
  have hnull : cosaUtilGetLinkTypeFromPath false "Device.IP.Interface.1".toList = none := by
    decide +kernel
  rw [Classifies,hnull]
  rintro (⟨e,-,-,hfound⟩ | ⟨-,hlast⟩)
  · cases hfound
  · cases hlast

end EthAgent
