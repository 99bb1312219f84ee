import EthAgent.Ipv6Prefix

/-!
`CosaUtilGetIpv6AddrInfo` over the lines of `/proc/net/if_inet6`, and the prefix
texts that it makes of them.
-/

set_option autoImplicit false

namespace EthAgent
open CString Scanf Inet6

/-- What one `fscanf` stores; the flags of the address are not looked at. -/
structure ScannedLine where
  addr6p : List Text
  ifIdx : Int
  plen : Int
  scope : Int
  devname : Text

inductive Ipv6Scope where
  | unknown
  | global
  | linkLocal
  | siteLocal
  | compatV4
  | loopback
  deriving DecidableEq

structure Ipv6Info where
  scope : Ipv6Scope
  v6addr : Text
  v6pre : Text
  deriving DecidableEq

def scanGroups : Nat → Text → Option (List Text × Text)
  | 0, t => some ([],t)
  | n+1, t =>
    (scanWord 4 t).bind fun (group,t) =>
      (scanGroups n t).map fun (groups,t) => (group :: groups,t)

def scanLine (t : Text) : Option (ScannedLine × Text) := do
  let (addr6p,t) ← scanGroups 8 t
  let (ifIdx,t) ← scanHex 8 t
  let (plen,t) ← scanHex 2 t
  let (scope,t) ← scanHex 2 t
  let (_,t) ← scanHex 2 t
  let (devname,t) ← scanWord 20 t
  return (⟨addr6p,ifIdx,plen,scope,devname⟩,t.dropWhile isSpace)

def scopeOf (scope : Nat) : Ipv6Scope :=
  match scope &&& 0xf0 with
  | 0x00 => .global
  | 0x20 => .linkLocal
  | 0x40 => .siteLocal
  | 0x80 => .compatV4
  | 0x10 => .loopback
  | _ => .unknown

/-- `%d`. -/
def decimalInt (n : Int) : Text :=
  if n < 0 then '-' :: decimal (-n).toNat else decimal n.toNat

/-- The groups that the prefix has bits in, with the length after them. -/
def v6preText (addr6p : List Text) (plen : Int) : Text :=
  let num := if plen.tmod 16 ≠ 0 then plen.tdiv 16+1 else plen.tdiv 16
  (colons (addr6p.take num.toNat) ++ ":/".toList ++ decimalInt plen).take 63

/-- One entry, if `inet_pton` reads the address; its text replaces the groups if it fits
in `addr6`. -/
def addrInfo (l : ScannedLine) : Option Ipv6Info :=
  let addr6 := (joined l.addr6p).take 39
  (inetPton addr6).map fun sin6_addr =>
    let v6addr := inetNtop sin6_addr
    ⟨scopeOf l.scope.toNat,if v6addr.length < 40 then v6addr else addr6,
      v6preText l.addr6p l.plen⟩

/-- The loop, with fuel. No line of the kernel makes a conversion fail, so that what the
variables of the line before make of it is left open. -/
def ipv6Loop (ifname : Text) : Nat → Text → Option (List Ipv6Info)
  | 0, _ => none
  | fuel+1, t =>
    if t.dropWhile isSpace = [] then some []
    else
      (scanLine t).bind fun (l,t) =>
        if l.devname = ifname then
          (addrInfo l).bind fun p_ai => (ipv6Loop ifname fuel t).map (p_ai :: ·)
        else ipv6Loop ifname fuel t

def cosaUtilGetIpv6AddrInfo (ifname file : Text) : Option (List Ipv6Info) :=
  ipv6Loop ifname (file.length+1) file

/-- `%02x`. -/
def hexField (n : Nat) : Text := if n < 16 then '0' :: hexText n else hexText n

structure If6Line where
  addr : In6Addr
  ifIdx : Nat
  plen : Nat
  scope : Nat
  flags : Nat
  name : Text
  idxFits : ifIdx < 16^8
  plenFits : plen ≤ 128
  scopeFits : scope < 256
  flagsFits : flags < 256
  named : name ≠ []
  nameFits : name.length < 16
  nameVisible : ∀ c ∈ name, isSpace c = false

/-- The address as 32 digits, the numbers as `%02x` and the name as `%8s`. -/
def If6Line.text (l : If6Line) : Text :=
  l.addr.s6Addr.flatMap (fun b => hexField b.toNat) ++ ' ' :: hexField l.ifIdx ++
    ' ' :: hexField l.plen ++ ' ' :: hexField l.scope ++ ' ' :: hexField l.flags ++
    ' ' :: List.replicate (8-l.name.length) ' ' ++ l.name ++ ['\n']

def fileText (lines : List If6Line) : Text := lines.flatMap If6Line.text

section Lines

theorem hexField_digits (n : Nat) :
    (∀ c ∈ hexField n, c.isHexDigit = true) ∧ hexNumber (hexField n) = n := by
  obtain ⟨hdigits,hvalue⟩ := hexText_digits n
  rw [hexField]
  split
  · refine ⟨fun c hc => ?_,?_⟩
    · rcases List.mem_cons.mp hc with rfl | hc
      · decide
      · exact hdigits c hc
    · have hzero : hexNumber ('0' :: hexText n) = hexNumber (hexText n) := by
        simp [hexNumber,hexValue]
      rw [hzero,hvalue]
  · exact ⟨hdigits,hvalue⟩

theorem hexField_ne_nil (n : Nat) : hexField n ≠ [] := by
  rw [hexField]
  split
  · simp
  · exact Nat.toDigits_ne_nil

theorem length_hexField_le {n k : Nat} (hk : 1 < k) (hn : n < 16^k) :
    (hexField n).length ≤ k := by
  rw [hexField]
  split
  · next hlt =>
    rw [hexText,Nat.toDigits_of_lt_base hlt]
    exact hk
  · exact (Nat.length_toDigits_le_iff (by decide) (by omega)).mpr hn

theorem length_hexField_byte (b : UInt8) : (hexField b.toNat).length = 2 := by
  have hle := length_hexField_le (k := 2) (by decide) b.toNat_lt
  have hge : 2 ≤ (hexField b.toNat).length := by
    rw [hexField]
    split
    · next hlt =>
      rw [hexText,Nat.toDigits_of_lt_base hlt]
      exact Nat.le_refl _
    · next hlt =>
      rw [hexText,Nat.toDigits_of_base_le (by decide) (by omega),List.length_append]
      exact Nat.succ_le_succ (List.length_pos_of_ne_nil Nat.toDigits_ne_nil)
  omega

theorem scanHex_field {width n : Nat} (h : (hexField n).length ≤ width) (rest : Text) :
    scanHex width (' ' :: (hexField n ++ ' ' :: rest)) = some ((n : Int),' ' :: rest) := by
  obtain ⟨hdigits,hvalue⟩ := hexField_digits n
  rw [scanHex_space,scanHex_of_digits (hexField_ne_nil n) h hdigits,hvalue]
  intro _ c hc
  obtain rfl := Option.some_inj.mp hc
  decide

def groupsOf : List UInt8 → List Text
  | b0 :: b1 :: bytes => (hexField b0.toNat ++ hexField b1.toNat) :: groupsOf bytes
  | _ => []

theorem isGroup_bytes (b0 b1 : UInt8) :
    IsGroup (hexField b0.toNat ++ hexField b1.toNat) (256*b0.toNat+b1.toNat) where
  nonempty := fun h => hexField_ne_nil _ (List.append_eq_nil_iff.mp h).1
  short := by rw [List.length_append,length_hexField_byte,length_hexField_byte]
  digits := fun c hc => (List.mem_append.mp hc).elim ((hexField_digits _).1 c)
    ((hexField_digits _).1 c)
  value := by
    rw [hexNumber_append,length_hexField_byte,(hexField_digits _).2,(hexField_digits _).2]
    rfl

theorem groupsOf_spec {bytes : List UInt8} {n : Nat} (h : bytes.length = 2*n) :
    List.Forall₂ IsGroup (groupsOf bytes) (wordsOf bytes) ∧
      (∀ group ∈ groupsOf bytes, group.length = 4 ∧ ∀ c ∈ group, c.isHexDigit = true) ∧
      (groupsOf bytes).flatten = bytes.flatMap fun b => hexField b.toNat := by
  induction n generalizing bytes with
  | zero =>
    obtain rfl := List.eq_nil_of_length_eq_zero h
    exact ⟨.nil,fun _ hg => absurd hg (by simp [groupsOf]),rfl⟩
  | succ n ih =>
    rcases bytes with _ | ⟨b0,_ | ⟨b1,tail⟩⟩
    · exact absurd h (by simp)
    · exact absurd h (by simp; omega)
    · obtain ⟨hgroups,hfour,hflat⟩ := ih (by simpa [Nat.mul_succ] using h)
      have hgroup := isGroup_bytes b0 b1
      refine ⟨.cons hgroup hgroups,fun group hg => ?_,?_⟩
      · rcases List.mem_cons.mp hg with rfl | hg
        · refine ⟨?_,hgroup.digits⟩
          rw [List.length_append,length_hexField_byte,length_hexField_byte]
        · exact hfour group hg
      · rw [groupsOf,List.flatten_cons,hflat]
        simp

theorem scanGroups_flatten {groups : List Text}
    (h : ∀ group ∈ groups, group.length = 4 ∧ ∀ c ∈ group, c.isHexDigit = true) (rest : Text) :
    scanGroups groups.length (groups.flatten ++ rest) = some (groups,rest) := by
  induction groups with
  | nil => rfl
  | cons group groups ih =>
    obtain ⟨hfour,hdigits⟩ := h group List.mem_cons_self
    have hne : group ≠ [] := fun h => by simp [h] at hfour
    have hword := scanWord_of_word 4 (groups.flatten ++ rest) hne (Nat.le_of_eq hfour)
      (fun c hc => isSpace_of_isHexDigit (hdigits c hc)) (fun h => absurd h (by omega))
    have hrest := ih fun g hg => h g (List.mem_cons_of_mem _ hg)
    rw [List.length_cons,scanGroups,List.flatten_cons,List.append_assoc,hword,Option.bind_some]
    simp only [hrest,Option.map_some]

def If6Line.fields (l : If6Line) (rest : Text) : Text :=
  ' ' :: (hexField l.ifIdx ++ ' ' :: (hexField l.plen ++ ' ' :: (hexField l.scope ++
    ' ' :: (hexField l.flags ++ ' ' :: (List.replicate (8-l.name.length) ' ' ++
      (l.name ++ '\n' :: rest))))))

theorem If6Line.text_append (l : If6Line) (rest : Text) :
    l.text ++ rest = (groupsOf l.addr.s6Addr).flatten ++ l.fields rest := by
  rw [(groupsOf_spec (n := 8) l.addr.size).2.2,If6Line.text,If6Line.fields]
  simp only [List.append_assoc,List.cons_append,List.nil_append]

theorem scanLine_text (l : If6Line) (rest : Text) :
    scanLine (l.text ++ rest) =
      some (⟨groupsOf l.addr.s6Addr,l.ifIdx,l.plen,l.scope,l.name⟩,rest.dropWhile isSpace) := by
  obtain ⟨hgroups,hfour,-⟩ := groupsOf_spec (n := 8) l.addr.size
  have hcount : (groupsOf l.addr.s6Addr).length = 8 :=
    hgroups.length_eq.trans (flatMap_wordsOf l.addr.size).2.1
  have haddr := scanGroups_flatten hfour (l.fields rest)
  have hplen := l.plenFits
  have hnameFits := l.nameFits
  have hidx := length_hexField_le (k := 8) (by decide) l.idxFits
  have hlen := length_hexField_le (n := l.plen) (k := 2) (by decide) (by omega)
  have hscope := length_hexField_le (k := 2) (by decide) l.scopeFits
  have hflags := length_hexField_le (k := 2) (by decide) l.flagsFits
  have hname := scanWord_of_word 20 ('\n' :: rest) l.named (by omega)
    l.nameVisible (fun _ c hc => by obtain rfl := Option.some_inj.mp hc; rfl)
  have hblanks := (scanWord_blanks 20 (8-l.name.length+1) (l.name ++ '\n' :: rest)).trans hname
  rw [List.replicate_succ,List.cons_append] at hblanks
  rw [hcount] at haddr
  rw [l.text_append,scanLine,haddr]
  simp only [Option.bind_eq_bind,Option.bind_some,If6Line.fields,scanHex_field hidx,
    scanHex_field hlen,scanHex_field hscope,scanHex_field hflags,hblanks]
  rfl

theorem groupsOf_ne_nil (a : In6Addr) : groupsOf a.s6Addr ≠ [] := by
  have hlen := (groupsOf_spec (n := 8) a.size).1.length_eq
  rw [(flatMap_wordsOf (n := 8) a.size).2.1] at hlen
  exact List.ne_nil_of_length_pos (by omega)

theorem dropWhile_text (l : If6Line) (rest : Text) :
    (l.text ++ rest).dropWhile isSpace = l.text ++ rest ∧ l.text ++ rest ≠ [] := by
  obtain ⟨group,groups,hgroups⟩ := List.exists_cons_of_ne_nil (groupsOf_ne_nil l.addr)
  obtain ⟨hfour,hdigits⟩ := (groupsOf_spec (n := 8) l.addr.size).2.1 group
    (hgroups ▸ List.mem_cons_self)
  have hne : group ≠ [] := fun h => by simp [h] at hfour
  obtain ⟨c,tail,rfl⟩ := List.exists_cons_of_ne_nil hne
  have hc := isSpace_of_isHexDigit (hdigits c List.mem_cons_self)
  rw [l.text_append,hgroups,List.flatten_cons,List.cons_append,List.cons_append,
    List.dropWhile_cons_of_neg (by simp [hc])]
  exact ⟨rfl,by simp⟩

theorem dropWhile_fileText (lines : List If6Line) :
    (fileText lines).dropWhile isSpace = fileText lines := by
  cases lines with
  | nil => rfl
  | cons l lines => exact (dropWhile_text l (fileText lines)).1

theorem length_fileText (lines : List If6Line) : lines.length ≤ (fileText lines).length := by
  induction lines with
  | nil => exact Nat.le_refl _
  | cons l lines ih =>
    have hne : l.text ≠ [] := by simp [If6Line.text]
    have hpos := List.length_pos_of_ne_nil hne
    rw [fileText,List.flatMap_cons,List.length_append,List.length_cons]
    rw [fileText] at ih
    omega

def If6Line.info (l : If6Line) : Ipv6Info :=
  ⟨scopeOf l.scope,
    if (inetNtop l.addr).length < 40 then inetNtop l.addr else joined (groupsOf l.addr.s6Addr),
    v6preText (groupsOf l.addr.s6Addr) l.plen⟩

theorem inetPton_groupsOf (a : In6Addr) : inetPton (joined (groupsOf a.s6Addr)) = some a := by
  obtain ⟨hflat,hlen,-⟩ := flatMap_wordsOf (n := 8) a.size
  rw [inetPton_joined (groupsOf_spec (n := 8) a.size).1 hlen,hflat,expand_whole]

theorem length_colons {groups : List Text} (h : ∀ group ∈ groups, group.length = 4) :
    (colons groups).length = 5*groups.length := by
  induction groups with
  | nil => rfl
  | cons group groups ih =>
    have hih := ih fun g hg => h g (List.mem_cons_of_mem _ hg)
    rw [colons] at hih
    rw [colons,List.flatMap_cons,List.length_append,hih,List.length_append,
      h group List.mem_cons_self,List.length_singleton,List.length_cons]
    omega

theorem length_joined_groupsOf (a : In6Addr) : (joined (groupsOf a.s6Addr)).length = 39 := by
  obtain ⟨hgroups,hfour,-⟩ := groupsOf_spec (n := 8) a.size
  have hcolon := congrArg List.length (joined_colon (groupsOf_ne_nil a))
  rw [length_colons fun g hg => (hfour g hg).1,hgroups.length_eq,
    (flatMap_wordsOf (n := 8) a.size).2.1,List.length_append,List.length_singleton] at hcolon
  omega

theorem addrInfo_line (l : If6Line) :
    addrInfo ⟨groupsOf l.addr.s6Addr,l.ifIdx,l.plen,l.scope,l.name⟩ = some l.info := by
  have htake : (joined (groupsOf l.addr.s6Addr)).take 39 = joined (groupsOf l.addr.s6Addr) :=
    List.take_of_length_le (Nat.le_of_eq (length_joined_groupsOf l.addr))
  rw [addrInfo,htake,inetPton_groupsOf,Option.map_some]
  rfl

theorem ipv6Loop_fileText (ifname : Text) {fuel : Nat} {lines : List If6Line}
    (hfuel : lines.length < fuel) :
    ipv6Loop ifname fuel (fileText lines) =
      some ((lines.filter fun l => l.name = ifname).map If6Line.info) := by
  induction lines generalizing fuel with
  | nil =>
    obtain ⟨fuel,rfl⟩ := Nat.exists_eq_succ_of_ne_zero (Nat.ne_of_gt hfuel)
    rfl
  | cons l lines ih =>
    obtain ⟨fuel,rfl⟩ := Nat.exists_eq_succ_of_ne_zero (Nat.ne_of_gt (Nat.zero_lt_of_lt hfuel))
    have hrest := @ih fuel (by rw [List.length_cons] at hfuel; omega)
    obtain ⟨hspace,hne⟩ := dropWhile_text l (fileText lines)
    have hfile : fileText (l :: lines) = l.text ++ fileText lines := rfl
    rw [hfile,ipv6Loop,hspace,if_neg hne,scanLine_text,Option.bind_some]
    simp only [dropWhile_fileText,hrest]
    by_cases hname : l.name = ifname
    · rw [if_pos hname,addrInfo_line,Option.bind_some,Option.map_some,
        List.filter_cons_of_pos (by simpa using hname),List.map_cons]
    · rw [if_neg hname,List.filter_cons_of_neg (by simpa using hname)]

end Lines

section Agreement

def prefixGroups (n : Nat) : Nat := (n+15)/16

def If6Line.prefixText (l : If6Line) : Text :=
  colons ((groupsOf l.addr.s6Addr).take (prefixGroups l.plen)) ++ [':']

theorem prefixGroups_le (l : If6Line) : prefixGroups l.plen ≤ 8 := by
  have := l.plenFits
  rw [prefixGroups]
  omega

theorem length_groupsOf (a : In6Addr) : (groupsOf a.s6Addr).length = 8 :=
  (groupsOf_spec (n := 8) a.size).1.length_eq.trans (flatMap_wordsOf (n := 8) a.size).2.1

theorem length_prefixText (l : If6Line) : l.prefixText.length = 5*prefixGroups l.plen+1 := by
  have hfour := (groupsOf_spec (n := 8) l.addr.size).2.1
  rw [If6Line.prefixText,List.length_append,
    length_colons fun g hg => (hfour g (List.mem_of_mem_take hg)).1,List.length_take,
    length_groupsOf,Nat.min_eq_left (prefixGroups_le l)]
  rfl

theorem v6preText_line (l : If6Line) :
    v6preText (groupsOf l.addr.s6Addr) l.plen = l.prefixText ++ '/' :: decimal l.plen := by
  have hplen := l.plenFits
  have hmod : (l.plen : Int).tmod 16 = ((l.plen%16 : Nat) : Int) :=
    (Int.ofNat_tmod l.plen 16).symm
  have hdiv : (l.plen : Int).tdiv 16 = ((l.plen/16 : Nat) : Int) :=
    (Int.ofNat_tdiv l.plen 16).symm
  have hnum : (if (l.plen : Int).tmod 16 ≠ 0 then (l.plen : Int).tdiv 16+1
      else (l.plen : Int).tdiv 16).toNat = prefixGroups l.plen := by
    rw [hmod,hdiv,prefixGroups]
    split <;> omega
  have hdecimal : decimalInt l.plen = decimal l.plen := by
    rw [decimalInt,if_neg (by omega),Int.toNat_natCast]
  have hdigits := length_decimal_le (n := l.plen) (k := 3) (by decide) (by omega)
  have hlen := length_prefixText l
  have hle := prefixGroups_le l
  rw [v6preText]
  simp only [hnum,hdecimal]
  rw [If6Line.prefixText] at hlen ⊢
  rw [List.take_of_length_le]
  · simp
  · simp only [List.length_append,List.length_singleton] at hlen ⊢
    simp
    omega

theorem ne_slash_of_mem_prefixText (l : If6Line) : ∀ c ∈ l.prefixText, c ≠ '/' := by
  have hfour := (groupsOf_spec (n := 8) l.addr.size).2.1
  intro c hc
  rcases List.mem_append.mp hc with hc | hc
  · obtain ⟨group,hgroup,hc⟩ := List.mem_flatMap.mp hc
    rcases List.mem_append.mp hc with hc | hc
    · rintro rfl
      exact absurd ((hfour group (List.mem_of_mem_take hgroup)).2 _ hc) (by decide)
    · exact List.mem_singleton.mp hc ▸ by decide
  · exact List.mem_singleton.mp hc ▸ by decide

theorem prefix_split {before : Text} (h : ∀ c ∈ before, c ≠ '/') (after : Text) :
    prefixAddress (before ++ '/' :: after) = before ∧
      prefixLength (before ++ '/' :: after) = (scanDecimal after).map Prod.fst := by
  have hall : ∀ c ∈ before, decide (c ≠ '/') = true := fun c hc => by simpa using h c hc
  rw [prefixAddress,prefixLength,List.takeWhile_append_of_pos hall,
    List.dropWhile_append_of_pos hall]
  simp

theorem v6addr_line (l : If6Line) : inetPton l.info.v6addr = some l.addr := by
  rw [If6Line.info]
  simp only
  split
  · exact inetPton_inetNtop l.addr
  · exact inetPton_groupsOf l.addr

theorem mismatches_line (c : IntStore) (l : If6Line) :
    v6addrMismatchesV6pre c l.info.v6addr l.info.v6pre =
      v6addrMismatch l.info.v6addr l.prefixText l.plen := by
  have hplen := l.plenFits
  have haddr := length_le_of_inetPton (v6addr_line l)
  have hpre : l.info.v6pre = l.prefixText ++ '/' :: decimal l.plen := v6preText_line l
  have hlen := length_prefixText l
  have hle := prefixGroups_le l
  have hdigits := length_decimal_le (n := l.plen) (k := 3) (by decide) (by omega)
  obtain ⟨htext,hnumber⟩ := prefix_split (ne_slash_of_mem_prefixText l) (decimal l.plen)
  rw [scanDecimal_decimal] at hnumber
  rw [v6addrMismatchesV6pre,hpre,if_neg (by omega),if_neg (by simp; omega),if_neg (by simp),
    htext,hnumber]
  simp only [Option.map_some]
  rw [c.exact _ (by omega) (by omega)]

theorem inetPton_prefixText (l : If6Line) (hpos : 0 < l.plen) :
    inetPton l.prefixText =
      expand (l.addr.s6Addr.take (2*prefixGroups l.plen)) (some (2*prefixGroups l.plen)) := by
  obtain ⟨hgroups,-,-⟩ := groupsOf_spec (n := 8) l.addr.size
  obtain ⟨-,hlen,-⟩ := flatMap_wordsOf (n := 8) l.addr.size
  have hle := prefixGroups_le l
  have hcount : ((wordsOf l.addr.s6Addr).take (prefixGroups l.plen)).length =
      prefixGroups l.plen := by
    rw [List.length_take,hlen,Nat.min_eq_left hle]
  have hne : (groupsOf l.addr.s6Addr).take (prefixGroups l.plen) ≠ [] := by
    refine List.ne_nil_of_length_pos ?_
    rw [List.length_take,length_groupsOf,prefixGroups]
    omega
  have hdouble := inetPton_double (List.forall₂_take (prefixGroups l.plen) hgroups)
    (by rw [hcount]; exact hle) []
  have htext : l.prefixText =
      joined ((groupsOf l.addr.s6Addr).take (prefixGroups l.plen)) ++ [':',':'] := by
    rw [If6Line.prefixText,← joined_colon hne,List.append_assoc]
    rfl
  rw [htext,hdouble,flatMap_take_wordsOf l.addr.size hle,hcount]
  rfl

/-- Without a group there is a single colon, and after all eight there is no room for
the two. -/
theorem inetPton_prefixText_none {l : If6Line} (h : l.plen = 0 ∨ 112 < l.plen) :
    inetPton l.prefixText = none := by
  by_cases hzero : l.plen = 0
  · rw [If6Line.prefixText,hzero]
    rfl
  · have hplen := l.plenFits
    have hgroups : prefixGroups l.plen = 8 := by
      rw [prefixGroups]
      omega
    rw [inetPton_prefixText l (by omega),hgroups,expand,dif_neg]
    rw [List.length_take,l.addr.size]
    omega

theorem exists_prefix {l : If6Line} (hpos : 0 < l.plen) (hplen : l.plen ≤ 112) :
    ∃ b, inetPton l.prefixText = some b ∧ SameBits l.addr b l.plen := by
  have hgroups : prefixGroups l.plen ≤ 7 ∧ l.plen ≤ 16*prefixGroups l.plen := by
    rw [prefixGroups]
    omega
  have htake : (l.addr.s6Addr.take (2*prefixGroups l.plen)).length = 2*prefixGroups l.plen := by
    rw [List.length_take,l.addr.size]
    omega
  rw [inetPton_prefixText l hpos,expand,dif_pos ⟨htake.ge,by omega⟩]
  refine ⟨_,rfl,fun j hj => ?_⟩
  have hbyte : j/8 < 2*prefixGroups l.plen := by omega
  rw [addrBit,addrBit]
  simp only
  rw [List.append_assoc,List.getElem?_append_left (by rw [List.length_take]; omega),
    List.getElem?_take_of_lt hbyte,List.getElem?_take_of_lt hbyte]

theorem line_agrees_iff (c : IntStore) (l : If6Line) :
    v6addrMismatchesV6pre c l.info.v6addr l.info.v6pre = some 0 ↔ 0 < l.plen ∧ l.plen ≤ 112 := by
  rw [mismatches_line]
  by_cases hplen : 0 < l.plen ∧ l.plen ≤ 112
  · obtain ⟨b,hb,hsame⟩ := exists_prefix hplen.1 hplen.2
    exact iff_of_true ((v6addrMismatch_eq_zero_iff (v6addr_line l) hb (by omega)).mpr hsame) hplen
  · have hnone : inetPton l.prefixText = none := inetPton_prefixText_none (by omega)
    obtain ⟨r,hr,heq⟩ := v6addrMismatch_of_invalid l.info.v6addr _ (.inr hnone) l.plen
    rw [heq,Option.some_inj]
    exact iff_of_false hr hplen

/-- The entries are those of the lines of the interface, in order, each with the address of
its line in its prefix. -/
def PrefixesAgree (c : IntStore) (ifname : Text) (lines : List If6Line) : Prop :=
  ∃ infos, cosaUtilGetIpv6AddrInfo ifname (fileText lines) = some infos ∧
    List.Forall₂ (fun l p_ai => inetPton p_ai.v6addr = some l.addr ∧
        v6addrMismatchesV6pre c p_ai.v6addr p_ai.v6pre = some 0)
      (lines.filter fun l => l.name = ifname) infos

theorem prefixes_agree_iff (c : IntStore) (ifname : Text) (lines : List If6Line) :
    PrefixesAgree c ifname lines ↔
      ∀ l ∈ lines, l.name = ifname → 0 < l.plen ∧ l.plen ≤ 112 := by
  have hloop := ipv6Loop_fileText ifname (Nat.lt_succ_of_le (length_fileText lines))
  have hlines : (∀ l ∈ lines, l.name = ifname → 0 < l.plen ∧ l.plen ≤ 112) ↔
      ∀ l ∈ lines.filter fun l => l.name = ifname, 0 < l.plen ∧ l.plen ≤ 112 := by
    simp
  rw [PrefixesAgree,cosaUtilGetIpv6AddrInfo,hloop,hlines]
  simp only [Option.some_inj,exists_eq_left',List.forall₂_map_right_iff,List.forall₂_same]
  refine forall₂_congr fun l _ => ?_
  rw [line_agrees_iff]
  exact and_iff_right (v6addr_line l)

def loopbackLine : If6Line where
  addr := ⟨[0,0,0,0,0,0,0,0,0,0,0,0,0,0,0,1],rfl⟩
  ifIdx := 1
  plen := 128
  scope := 16
  flags := 128
  name := ['l','o']
  idxFits := by norm_num
  plenFits := by decide
  scopeFits := by decide
  flagsFits := by decide
  named := by decide
  nameFits := by decide
  nameVisible := by simp [isSpace]

/-- All eight groups and a `::` are no address. -/
theorem loopback_outside_its_prefix : ¬PrefixesAgree wrappingInt "lo".toList [loopbackLine] := by
  rintro ⟨infos,hinfos,hagree⟩
  have hcall : (cosaUtilGetIpv6AddrInfo "lo".toList (fileText [loopbackLine])).map
      (fun infos => infos.map fun p_ai =>
        v6addrMismatchesV6pre wrappingInt p_ai.v6addr p_ai.v6pre) = some [some (-9)] := by
    decide +kernel
  rw [hinfos,Option.map_some,Option.some_inj] at hcall
  obtain ⟨p_ai,rfl,hmismatch⟩ := List.map_eq_singleton_iff.mp hcall
  obtain ⟨l,ls,⟨-,hzero⟩,-⟩ := List.forall₂_cons_right_iff.mp hagree
  exact absurd (hmismatch.symm.trans hzero) (by decide)

end Agreement

end EthAgent
