import EthAgent.Lib.Scanf

/-!
IPv6 addresses and their texts: `inet_pton` and `inet_ntop` for `AF_INET6`, the
first being a left inverse of the second.
-/

set_option autoImplicit false

namespace Inet6
open CString Scanf

structure In6Addr where
  s6Addr : List UInt8
  size : s6Addr.length = 16
  deriving DecidableEq

theorem In6Addr.ext_bytes {a b : In6Addr} (h : a.s6Addr = b.s6Addr) : a = b := by
  cases a; cases b; simp_all

/-- The four numbers of a dotted quad, `octet` being the one that is read. -/
def pton4Loop : Text → (octets : List Nat) → (octet : Option Nat) → Option (List Nat)
  | [], octets, octet =>
    match octet with
    | none => none
    | some n => if octets.length = 3 then some (octets ++ [n]) else none
  | ch :: src, octets, octet =>
    if ch.isDigit then
      match octet with
      | none => pton4Loop src octets (some (ch.toNat-48))
      | some n =>
        if n = 0 ∨ 255 < 10*n+(ch.toNat-48) then none
        else pton4Loop src octets (some (10*n+(ch.toNat-48)))
    else if ch = '.' then
      match octet with
      | none => none
      | some n => if octets.length = 3 then none else pton4Loop src (octets ++ [n]) none
    else none

def inetPton4 (src : Text) : Option (List UInt8) :=
  (pton4Loop src [] none).map fun octets => octets.map UInt8.ofNat

def wordBytes (n : Nat) : List UInt8 := [UInt8.ofNat (n/256),UInt8.ofNat n]

/-- The bytes read, with zeros where the `::` was. -/
def expand (tp : List UInt8) : Option Nat → Option In6Addr
  | none => if h : tp.length = 16 then some ⟨tp,h⟩ else none
  | some colonp =>
    if h : colonp ≤ tp.length ∧ tp.length < 16 then
      some ⟨tp.take colonp ++ List.replicate (16-tp.length) 0 ++ tp.drop colonp,by
        simp only [List.length_append,List.length_take,List.length_replicate,List.length_drop]
        omega⟩
    else none

/-- The loop over the characters: the bytes so far, the place of the `::`, and the
digits and the value of the group that is read, which begins at `curtok`. -/
def ptonLoop : (src curtok : Text) → (tp : List UInt8) → (colonp : Option Nat) →
    (digits val : Nat) → Option In6Addr
  | [], _, tp, colonp, digits, val =>
    if 0 < digits then
      if 14 < tp.length then none else expand (tp ++ wordBytes val) colonp
    else expand tp colonp
  | ch :: src, curtok, tp, colonp, digits, val =>
    if ch.isHexDigit then
      if digits = 4 then none
      else ptonLoop src curtok tp colonp (digits+1) (16*val+hexValue ch)
    else if ch = ':' then
      if digits = 0 then
        if colonp.isSome then none else ptonLoop src src tp (some tp.length) 0 0
      else if src = [] ∨ 14 < tp.length then none
      else ptonLoop src src (tp ++ wordBytes val) colonp 0 0
    else if ch = '.' ∧ tp.length ≤ 12 then
      (inetPton4 curtok).bind fun octets => expand (tp ++ octets) colonp
    else none

/-- `inet_pton(AF_INET6, …)`; a colon at the begin must be one of two. -/
def inetPton : Text → Option In6Addr
  | [] => none
  | ':' :: src => if src.head? = some ':' then ptonLoop src src [] none 0 0 else none
  | src => ptonLoop src src [] none 0 0

/-- `%x`. -/
def hexText (n : Nat) : Text := Nat.toDigits 16 n

def joined (groups : List Text) : Text := [':'].intercalate groups

def wordsOf : List UInt8 → List Nat
  | b0 :: b1 :: bytes => (256*b0.toNat+b1.toNat) :: wordsOf bytes
  | _ => []

/-- The longest run of zeros, the first one of that length, as its begin and length;
`cur` is the run that ends here. -/
def longestRun : List Nat → (i : Nat) → (cur best : Nat × Nat) → Nat × Nat
  | [], _, cur, best => if best.2 < cur.2 then cur else best
  | w :: words, i, cur, best =>
    if w = 0 then
      longestRun words (i+1) (if cur.2 = 0 then (i,1) else (cur.1,cur.2+1)) best
    else longestRun words (i+1) (0,0) (if best.2 < cur.2 then cur else best)

def dottedQuad (bytes : List UInt8) : Text :=
  ['.'].intercalate (bytes.map fun b => decimal b.toNat)

/-- What follows the `::`; the last four bytes are dotted for an address that stands
for one of IPv4. -/
def tailGroups (bytes : List UInt8) (base len : Nat) : List Text :=
  let words := wordsOf bytes
  if base = 0 ∧ (len = 6 ∨ len = 5 ∧ words[5]? = some 0xffff) then
    ((words.take 6).drop len).map hexText ++ [dottedQuad (bytes.drop 12)]
  else (words.drop (base+len)).map hexText

def inetNtop (a : In6Addr) : Text :=
  let words := wordsOf a.s6Addr
  let best := longestRun words 0 (0,0) (0,0)
  if best.2 < 2 then joined (words.map hexText)
  else
    joined ((words.take best.1).map hexText) ++ [':',':'] ++
      joined (tailGroups a.s6Addr best.1 best.2)

section Words

theorem wordBytes_word (b0 b1 : UInt8) : wordBytes (256*b0.toNat+b1.toNat) = [b0,b1] := by
  have h0 := b0.toNat_lt
  have h1 := b1.toNat_lt
  have hhi : (256*b0.toNat+b1.toNat)/256 = b0.toNat := by omega
  have hlo : UInt8.ofNat (256*b0.toNat+b1.toNat) = b1 := by
    refine UInt8.toNat_inj.mp ?_
    rw [UInt8.toNat_ofNat']
    omega
  rw [wordBytes,hhi,hlo,UInt8.ofNat_toNat]

theorem flatMap_wordsOf {bytes : List UInt8} {n : Nat} (h : bytes.length = 2*n) :
    (wordsOf bytes).flatMap wordBytes = bytes ∧ (wordsOf bytes).length = n ∧
      ∀ w ∈ wordsOf bytes, w < 65536 := by
  induction n generalizing bytes with
  | zero =>
    obtain rfl := List.eq_nil_of_length_eq_zero h
    simp [wordsOf]
  | succ n ih =>
    rcases bytes with _ | ⟨b0,_ | ⟨b1,tail⟩⟩
    · exact absurd h (by simp)
    · exact absurd h (by simp; omega)
    · obtain ⟨hflat,hlen,hlt⟩ := ih (by simpa [Nat.mul_succ] using h)
      have h0 := b0.toNat_lt
      have h1 := b1.toNat_lt
      refine ⟨?_,?_,?_⟩
      · rw [wordsOf,List.flatMap_cons,wordBytes_word,hflat]
        rfl
      · rw [wordsOf,List.length_cons,hlen]
      · intro w hw
        rcases List.mem_cons.mp hw with rfl | hw
        · omega
        · exact hlt w hw

@[simp] theorem length_wordBytes (n : Nat) : (wordBytes n).length = 2 := rfl

theorem length_flatMap_wordBytes (words : List Nat) :
    (words.flatMap wordBytes).length = 2*words.length := by
  simp [List.length_flatMap,Nat.mul_comm]

/-- A run of zeros, also an empty one. -/
def IsRun (words : List Nat) (run : Nat × Nat) : Prop :=
  ∀ j, run.1 ≤ j → j < run.1+run.2 → words[j]? = some 0

theorem longestRun_isRun {all words : List Nat} {i : Nat} (hi : all.drop i = words)
    {cur best : Nat × Nat} (hcur : IsRun all cur) (hend : cur.2 = 0 ∨ cur.1+cur.2 = i)
    (hbest : IsRun all best) : IsRun all (longestRun words i cur best) := by
  induction words generalizing i cur best with
  | nil =>
    rw [longestRun]
    split
    · exact hcur
    · exact hbest
  | cons w words ih =>
    have hw : all[i]? = some w := by
      rw [← List.head?_drop,hi]
      rfl
    have hnext : all.drop (i+1) = words := by
      rw [← List.tail_drop,hi]
      rfl
    rw [longestRun]
    split
    · next hzero =>
      rw [hzero] at hw
      split
      · refine ih hnext (fun j hj hj' => ?_) (.inr rfl) hbest
        have hji : j = i := Nat.le_antisymm (by simpa using Nat.lt_succ_iff.mp hj') hj
        rw [hji,hw]
      · next hne =>
        have hend := hend.resolve_left hne
        refine ih hnext (fun j hj hj' => ?_) (.inr (by simp only; omega)) hbest
        by_cases hji : j = i
        · rw [hji,hw]
        · exact hcur j hj (by simp only at hj'; omega)
    · refine ih hnext (fun j hj hj' => ?_) (.inl rfl) ?_
      · exact absurd (Nat.lt_of_le_of_lt hj hj') (Nat.lt_irrefl _)
      · split
        · exact hcur
        · exact hbest

theorem IsRun.le_length {words : List Nat} {run : Nat × Nat} (h : IsRun words run)
    (hpos : 0 < run.2) : run.1+run.2 ≤ words.length := by
  have hlast := h (run.1+run.2-1) (by omega) (by omega)
  have := (List.getElem?_eq_some_iff.mp hlast).1
  omega

theorem IsRun.split {words : List Nat} {run : Nat × Nat} (h : IsRun words run)
    (hpos : 0 < run.2) :
    words = words.take run.1 ++ List.replicate run.2 0 ++ words.drop (run.1+run.2) := by
  have hle := h.le_length hpos
  have hmid : (words.drop run.1).take run.2 = List.replicate run.2 0 := by
    apply List.ext_getElem?
    intro j
    rw [List.getElem?_take,List.getElem?_drop,List.getElem?_replicate]
    split
    · next hj => exact h _ (Nat.le_add_right _ _) (by omega)
    · rfl
  rw [← hmid,List.append_assoc,← List.drop_drop,List.take_append_drop,List.take_append_drop]

end Words

section Groups

structure IsGroup (t : Text) (n : Nat) : Prop where
  nonempty : t ≠ []
  short : t.length ≤ 4
  digits : ∀ c ∈ t, c.isHexDigit = true
  value : hexNumber t = n

theorem isHexDigit_digitChar {d : Nat} (hd : d < 16) :
    d.digitChar.isHexDigit = true ∧ hexValue d.digitChar = d := by
  have hall : ∀ d : Fin 16, d.val.digitChar.isHexDigit = true ∧ hexValue d.val.digitChar = d := by
    decide
  exact hall ⟨d,hd⟩

theorem hexNumber_concat (t : Text) (c : Char) :
    hexNumber (t ++ [c]) = 16*hexNumber t+hexValue c := by simp [hexNumber]

/-- `%x` writes digits of which the value is the number. -/
theorem hexText_digits (n : Nat) :
    (∀ c ∈ hexText n, c.isHexDigit = true) ∧ hexNumber (hexText n) = n := by
  induction n using Nat.strongRecOn with
  | ind n ih =>
    by_cases hn : n < 16
    · rw [hexText,Nat.toDigits_of_lt_base hn]
      obtain ⟨hdigit,hvalue⟩ := isHexDigit_digitChar hn
      exact ⟨fun c hc => List.mem_singleton.mp hc ▸ hdigit,by simp [hexNumber,hvalue]⟩
    · obtain ⟨hdigits,hvalue⟩ := ih (n/16) (by omega)
      obtain ⟨hdigit,hlast⟩ := isHexDigit_digitChar (Nat.mod_lt n (by decide : 0 < 16))
      rw [hexText] at hdigits hvalue
      rw [hexText,Nat.toDigits_of_base_le (by decide) (by omega)]
      refine ⟨fun c hc => ?_,?_⟩
      · rcases List.mem_append.mp hc with hc | hc
        · exact hdigits c hc
        · exact List.mem_singleton.mp hc ▸ hdigit
      · rw [hexNumber_concat,hvalue,hlast]
        omega

theorem isGroup_hexText {n : Nat} (hn : n < 65536) : IsGroup (hexText n) n where
  nonempty := Nat.toDigits_ne_nil
  short := (Nat.length_toDigits_le_iff (by decide) (by decide)).mpr hn
  digits := (hexText_digits n).1
  value := (hexText_digits n).2

theorem ptonLoop_digits {ds : Text} (hds : ∀ c ∈ ds, c.isHexDigit = true) (rest curtok : Text)
    (tp : List UInt8) (colonp : Option Nat) {digits : Nat} (hlen : digits+ds.length ≤ 4)
    (val : Nat) :
    ptonLoop (ds ++ rest) curtok tp colonp digits val =
      ptonLoop rest curtok tp colonp (digits+ds.length)
        (ds.foldl (fun n c => 16*n+hexValue c) val) := by
  induction ds generalizing digits val with
  | nil => rfl
  | cons c ds ih =>
    rw [List.length_cons] at hlen
    rw [List.cons_append,ptonLoop,if_pos (hds c List.mem_cons_self),if_neg (by omega),
      ih (fun c hc => hds c (List.mem_cons_of_mem _ hc)) (by omega),List.foldl_cons,
      List.length_cons,Nat.add_assoc,Nat.add_comm 1]

theorem not_isHexDigit_colon : ¬ ':'.isHexDigit = true := by decide

theorem ptonLoop_group_colon {t : Text} {n : Nat} (h : IsGroup t n) {rest : Text}
    (hrest : rest ≠ []) (curtok : Text) {tp : List UInt8} (htp : tp.length ≤ 14)
    (colonp : Option Nat) :
    ptonLoop (t ++ ':' :: rest) curtok tp colonp 0 0 =
      ptonLoop rest rest (tp ++ wordBytes n) colonp 0 0 := by
  have hpos := List.length_pos_of_ne_nil h.nonempty
  have hshort := h.short
  have hvalue : t.foldl (fun n c => 16*n+hexValue c) 0 = n := h.value
  rw [ptonLoop_digits h.digits _ _ _ _ (by omega),hvalue,ptonLoop,if_neg not_isHexDigit_colon,
    if_pos rfl,if_neg (by omega),if_neg (by simp only [hrest,false_or]; omega)]

theorem ptonLoop_group {t : Text} {n : Nat} (h : IsGroup t n) (curtok : Text)
    {tp : List UInt8} (htp : tp.length ≤ 14) (colonp : Option Nat) :
    ptonLoop t curtok tp colonp 0 0 = expand (tp ++ wordBytes n) colonp := by
  have hpos := List.length_pos_of_ne_nil h.nonempty
  have hshort := h.short
  have hvalue : t.foldl (fun n c => 16*n+hexValue c) 0 = n := h.value
  have hdigits : ptonLoop (t ++ []) curtok tp colonp 0 0 = _ :=
    ptonLoop_digits h.digits [] curtok tp colonp (by omega) 0
  rw [List.append_nil,hvalue] at hdigits
  rw [hdigits,ptonLoop,if_pos (by omega),if_neg (by omega)]

def colons (groups : List Text) : Text := groups.flatMap fun t => t ++ [':']

theorem ptonLoop_colons {groups : List Text} {words : List Nat}
    (h : List.Forall₂ IsGroup groups words) {rest : Text} (hrest : rest ≠ [])
    (tp : List UInt8) (htp : tp.length+2*words.length ≤ 16) (colonp : Option Nat) :
    ptonLoop (colons groups ++ rest) (colons groups ++ rest) tp colonp 0 0 =
      ptonLoop rest rest (tp ++ words.flatMap wordBytes) colonp 0 0 := by
  induction h generalizing tp with
  | nil => rw [List.flatMap_nil,List.append_nil]; rfl
  | @cons t n groups words hgroup h ih =>
    rw [List.length_cons] at htp
    have hsplit : colons (t :: groups) ++ rest = t ++ ':' :: (colons groups ++ rest) := by
      simp [colons]
    have hne : colons groups ++ rest ≠ [] := fun h => hrest (List.append_eq_nil_iff.mp h).2
    rw [hsplit,ptonLoop_group_colon hgroup hne _ (by omega),
      ih _ (by simp only [List.length_append,length_wordBytes]; omega),List.flatMap_cons,
      List.append_assoc]

theorem joined_concat (groups : List Text) (t : Text) :
    joined (groups ++ [t]) = colons groups ++ t := by
  induction groups with
  | nil => simp [joined,colons]
  | cons t' groups ih =>
    have hne : groups ++ [t] ≠ [] := by simp
    obtain ⟨t'',rest,hrest⟩ := List.exists_cons_of_ne_nil hne
    rw [List.cons_append,hrest,joined,List.intercalate_cons_cons,← hrest]
    rw [joined] at ih
    rw [ih]
    simp [colons]

theorem joined_cons_cons (t t' : Text) (groups : List Text) :
    joined (t :: t' :: groups) = t ++ ':' :: joined (t' :: groups) := by
  rw [joined,List.intercalate_cons_cons,List.append_assoc]
  rfl

theorem IsGroup.joined_ne_nil {t : Text} {n : Nat} (h : IsGroup t n) (groups : List Text) :
    joined (t :: groups) ≠ [] := by
  cases groups with
  | nil => simpa [joined] using h.nonempty
  | cons t' groups =>
    rw [joined_cons_cons]
    simp

theorem ptonLoop_joined {groups : List Text} {words : List Nat}
    (h : List.Forall₂ IsGroup groups words) (curtok : Text) (tp : List UInt8)
    (htp : tp.length+2*words.length ≤ 16) (colonp : Option Nat) :
    ptonLoop (joined groups) curtok tp colonp 0 0 =
      expand (tp ++ words.flatMap wordBytes) colonp := by
  induction h generalizing tp curtok with
  | nil => rw [List.flatMap_nil,List.append_nil]; rfl
  | @cons t n groups words hgroup h ih =>
    rw [List.length_cons] at htp
    cases h with
    | nil =>
      rw [List.flatMap_cons,List.flatMap_nil,List.append_nil]
      exact (congrArg (ptonLoop · curtok tp colonp 0 0) (by simp [joined])).trans
        (ptonLoop_group hgroup curtok (by omega) colonp)
    | @cons t' n' groups words hgroup' h =>
      rw [joined_cons_cons,ptonLoop_group_colon hgroup (hgroup'.joined_ne_nil groups) _
        (by omega),ih _ _ (by simp only [List.length_append,length_wordBytes]; omega),
        List.append_assoc]
      rfl

theorem forall₂_hexText {words : List Nat} (h : ∀ w ∈ words, w < 65536) :
    List.Forall₂ IsGroup (words.map hexText) words := by
  induction words with
  | nil => exact .nil
  | cons w words ih =>
    exact .cons (isGroup_hexText (h w List.mem_cons_self))
      (ih fun w hw => h w (List.mem_cons_of_mem _ hw))

end Groups

section Quads

theorem isDigit_digitChar {d : Nat} (hd : d < 10) :
    d.digitChar.isDigit = true ∧ d.digitChar.toNat-48 = d := by
  have hall : ∀ d : Fin 10, d.val.digitChar.isDigit = true ∧ d.val.digitChar.toNat-48 = d := by
    decide
  exact hall ⟨d,hd⟩

theorem pton4Loop_octet {n : Nat} (hn : n < 256) (rest : Text) (octets : List Nat) :
    pton4Loop (decimal n ++ rest) octets none = pton4Loop rest octets (some n) := by
  induction n using Nat.strongRecOn generalizing rest with
  | ind n ih =>
    by_cases hten : n < 10
    · obtain ⟨hdigit,hvalue⟩ := isDigit_digitChar hten
      rw [decimal,Nat.toDigits_of_lt_base hten,List.singleton_append,pton4Loop,if_pos hdigit]
      simp only [hvalue]
    · obtain ⟨hdigit,hvalue⟩ := isDigit_digitChar (Nat.mod_lt n (by decide : 0 < 10))
      have hsplit : decimal n = decimal (n/10) ++ [(n%10).digitChar] :=
        Nat.toDigits_of_base_le (by decide) (by omega)
      have hsum : 10*(n/10)+n%10 = n := by omega
      rw [hsplit,List.append_assoc,ih (n/10) (by omega) (by omega),List.singleton_append,
        pton4Loop,if_pos hdigit]
      simp only [hvalue,hsum]
      rw [if_neg (by omega)]

theorem dottedQuad_eq (b0 b1 b2 b3 : UInt8) :
    dottedQuad [b0,b1,b2,b3] = decimal b0.toNat ++ '.' :: (decimal b1.toNat ++ '.' ::
      (decimal b2.toNat ++ '.' :: decimal b3.toNat)) := by
  simp [dottedQuad]

theorem inetPton4_dottedQuad (b0 b1 b2 b3 : UInt8) :
    inetPton4 (dottedQuad [b0,b1,b2,b3]) = some [b0,b1,b2,b3] := by
  have hdot : ¬ '.'.isDigit = true := by decide
  have hlast := pton4Loop_octet b3.toNat_lt [] [b0.toNat,b1.toNat,b2.toNat]
  rw [List.append_nil] at hlast
  rw [inetPton4,dottedQuad_eq,pton4Loop_octet b0.toNat_lt,pton4Loop,if_neg hdot,if_pos rfl]
  simp only [List.length_nil,Nat.reduceEqDiff,if_false,List.nil_append]
  rw [pton4Loop_octet b1.toNat_lt,pton4Loop,if_neg hdot,if_pos rfl]
  simp only [List.length_singleton,Nat.reduceEqDiff,if_false,List.singleton_append]
  rw [pton4Loop_octet b2.toNat_lt,pton4Loop,if_neg hdot,if_pos rfl]
  simp only [List.length_cons,List.length_nil,Nat.reduceAdd,Nat.reduceEqDiff,if_false,
    List.cons_append,List.nil_append]
  rw [hlast]
  simp [pton4Loop]

theorem ptonLoop_dottedQuad (b0 b1 b2 b3 : UInt8) {tp : List UInt8} (htp : tp.length ≤ 12)
    (colonp : Option Nat) :
    ptonLoop (dottedQuad [b0,b1,b2,b3]) (dottedQuad [b0,b1,b2,b3]) tp colonp 0 0 =
      expand (tp ++ [b0,b1,b2,b3]) colonp := by
  have hquad := inetPton4_dottedQuad b0 b1 b2 b3
  generalize hcurtok : dottedQuad [b0,b1,b2,b3] = curtok at hquad
  have hdigits : ∀ c ∈ decimal b0.toNat, c.isHexDigit = true := fun c hc =>
    isHexDigit_of_isDigit (isDigit_of_mem_decimal hc)
  have hlt := b0.toNat_lt
  have hlen := length_decimal_le (n := b0.toNat) (k := 3) (by decide) (by omega)
  nth_rewrite 1 [← hcurtok]
  rw [dottedQuad_eq,ptonLoop_digits hdigits _ _ _ _ (by omega),ptonLoop,
    if_neg (by decide),if_neg (by decide),if_pos ⟨rfl,htp⟩,hquad,Option.bind_some]

end Quads

section RoundTrip

theorem joined_colon {groups : List Text} (h : groups ≠ []) :
    joined groups ++ [':'] = colons groups := by
  induction groups with
  | nil => exact absurd rfl h
  | cons t groups ih =>
    cases groups with
    | nil => simp [joined,colons]
    | cons t' groups =>
      rw [joined_cons_cons,List.append_assoc,List.cons_append,ih (by simp)]
      simp [colons]

theorem inetPton_of_digit {c : Char} (hc : c.isHexDigit = true) (src : Text) :
    inetPton (c :: src) = ptonLoop (c :: src) (c :: src) [] none 0 0 := by
  unfold inetPton
  split
  · next h => exact absurd h (by simp)
  · next h =>
    obtain rfl := (List.cons.inj h).1
    exact absurd hc (by decide)
  · rfl

theorem ptonLoop_colon (src curtok : Text) (tp : List UInt8) :
    ptonLoop (':' :: src) curtok tp none 0 0 = ptonLoop src src tp (some tp.length) 0 0 := by
  rw [ptonLoop,if_neg not_isHexDigit_colon,if_pos rfl,if_pos rfl]
  rfl

theorem inetPton_double {groups : List Text} {words : List Nat}
    (h : List.Forall₂ IsGroup groups words) (hlen : words.length ≤ 8) (rest : Text) :
    inetPton (joined groups ++ ':' :: ':' :: rest) =
      ptonLoop rest rest (words.flatMap wordBytes) (some (2*words.length)) 0 0 := by
  rw [← length_flatMap_wordBytes]
  cases h with
  | nil =>
    have hdouble : inetPton (':' :: ':' :: rest) =
        ptonLoop (':' :: rest) (':' :: rest) [] none 0 0 := by
      rw [inetPton,if_pos List.head?_cons]
    exact hdouble.trans (ptonLoop_colon rest _ [])
  | @cons t n groups words hgroup h =>
    have htext : joined (t :: groups) ++ ':' :: ':' :: rest =
        colons (t :: groups) ++ ':' :: rest := by
      rw [← joined_colon (by simp)]
      simp
    obtain ⟨c,tail,rfl⟩ := List.exists_cons_of_ne_nil hgroup.nonempty
    have hloop := ptonLoop_colons (.cons hgroup h) (List.cons_ne_nil ':' rest) []
      (by simpa using Nat.mul_le_mul_left 2 hlen) none
    rw [htext]
    refine Eq.trans ?_ (hloop.trans (ptonLoop_colon rest _ _))
    exact inetPton_of_digit (hgroup.digits c List.mem_cons_self) _

theorem inetPton_joined {groups : List Text} {words : List Nat}
    (h : List.Forall₂ IsGroup groups words) (hlen : words.length = 8) :
    inetPton (joined groups) = expand (words.flatMap wordBytes) none := by
  have hloop := ptonLoop_joined h (joined groups) [] (by simp [hlen]) none
  refine Eq.trans ?_ hloop
  cases h with
  | nil => exact absurd hlen (by simp)
  | @cons t n groups words hgroup h =>
    obtain ⟨c,tail,rfl⟩ := List.exists_cons_of_ne_nil hgroup.nonempty
    have htext : ∃ src, joined ((c :: tail) :: groups) = c :: src := by
      cases groups with
      | nil => exact ⟨tail,by simp [joined]⟩
      | cons t' groups => exact ⟨_,joined_cons_cons _ _ _⟩
    obtain ⟨src,hsrc⟩ := htext
    rw [hsrc]
    exact inetPton_of_digit (hgroup.digits c List.mem_cons_self) src

theorem flatMap_drop_wordsOf {bytes : List UInt8} (h : bytes.length = 16) {k : Nat}
    (hk : k ≤ 8) : ((wordsOf bytes).drop k).flatMap wordBytes = bytes.drop (2*k) := by
  obtain ⟨hflat,hlen,-⟩ := flatMap_wordsOf (n := 8) h
  have htake : (((wordsOf bytes).take k).flatMap wordBytes).length = 2*k := by
    rw [length_flatMap_wordBytes,List.length_take,hlen,Nat.min_eq_left hk]
  have hsplit : ((wordsOf bytes).take k).flatMap wordBytes ++
      ((wordsOf bytes).drop k).flatMap wordBytes = bytes := by
    rw [← List.flatMap_append,List.take_append_drop,hflat]
  have hdrop := congrArg (List.drop (2*k)) hsplit
  rw [List.drop_append_of_le_length htake.ge,List.drop_of_length_le htake.le,
    List.nil_append] at hdrop
  exact hdrop

theorem flatMap_take_wordsOf {bytes : List UInt8} (h : bytes.length = 16) {k : Nat}
    (hk : k ≤ 8) : ((wordsOf bytes).take k).flatMap wordBytes = bytes.take (2*k) := by
  obtain ⟨hflat,hlen,-⟩ := flatMap_wordsOf (n := 8) h
  have hsplit : ((wordsOf bytes).take k).flatMap wordBytes ++ bytes.drop (2*k) = bytes := by
    rw [← flatMap_drop_wordsOf h hk,← List.flatMap_append,List.take_append_drop,hflat]
  exact List.append_cancel_right (hsplit.trans (List.take_append_drop (2*k) bytes).symm)

theorem exists_four {bytes : List UInt8} (h : bytes.length = 4) :
    ∃ b0 b1 b2 b3, bytes = [b0,b1,b2,b3] := by
  rcases bytes with _ | ⟨b0,_ | ⟨b1,_ | ⟨b2,_ | ⟨b3,_ | ⟨b4,tail⟩⟩⟩⟩⟩
  all_goals first | exact ⟨_,_,_,_,rfl⟩ | exact absurd h (by simp)

theorem dottedQuad_ne_nil (b0 b1 b2 b3 : UInt8) : dottedQuad [b0,b1,b2,b3] ≠ [] := by
  rw [dottedQuad_eq]
  simp

theorem ptonLoop_tailGroups {bytes : List UInt8} (h : bytes.length = 16) {base len : Nat}
    (hrun : base+len ≤ 8) {tp : List UInt8} (htp : tp.length = 2*base) (colonp : Option Nat) :
    ptonLoop (joined (tailGroups bytes base len)) (joined (tailGroups bytes base len)) tp
        colonp 0 0 =
      expand (tp ++ bytes.drop (2*(base+len))) colonp := by
  obtain ⟨hflat,hlen,hlt⟩ := flatMap_wordsOf (n := 8) h
  rw [tailGroups]
  split
  · next hquad =>
    obtain ⟨rfl,hquad⟩ := hquad
    have hlen6 : len ≤ 6 := by omega
    obtain ⟨b0,b1,b2,b3,hlast⟩ := exists_four
      (by simp [h] : (bytes.drop 12).length = 4)
    have hgroups := forall₂_hexText
      fun w (hw : w ∈ ((wordsOf bytes).take 6).drop len) =>
        hlt w (List.mem_of_mem_take (List.mem_of_mem_drop hw))
    have hcount : (((wordsOf bytes).take 6).drop len).length = 6-len := by
      rw [List.length_drop,List.length_take,hlen,Nat.min_eq_left (by decide)]
    have hbytes : (((wordsOf bytes).take 6).drop len).flatMap wordBytes ++ bytes.drop 12 =
        bytes.drop (2*len) := by
      rw [← flatMap_drop_wordsOf h (k := 6) (by decide),← List.flatMap_append,
        ← List.drop_append_of_le_length (by rw [List.length_take,hlen]; omega),
        List.take_append_drop,flatMap_drop_wordsOf h (by omega)]
    rw [joined_concat,hlast,ptonLoop_colons hgroups (dottedQuad_ne_nil b0 b1 b2 b3) _
      (by rw [hcount]; omega),ptonLoop_dottedQuad _ _ _ _ (by
        rw [List.length_append,length_flatMap_wordBytes,hcount]; omega),
      ← hlast,List.append_assoc,hbytes,Nat.zero_add]
  · have hgroups := forall₂_hexText
      fun w (hw : w ∈ (wordsOf bytes).drop (base+len)) => hlt w (List.mem_of_mem_drop hw)
    rw [ptonLoop_joined hgroups _ _ (by rw [List.length_drop,hlen]; omega),
      flatMap_drop_wordsOf h hrun]

theorem expand_whole (a : In6Addr) : expand a.s6Addr none = some a := dif_pos a.size

theorem expand_zeros {before after : List UInt8} {n : Nat} (hn : 0 < n) {a : In6Addr}
    (h : before ++ List.replicate n 0 ++ after = a.s6Addr) :
    expand (before ++ after) (some before.length) = some a := by
  have hsize := a.size
  rw [← h] at hsize
  simp only [List.length_append,List.length_replicate] at hsize
  have hzeros : 16-(before ++ after).length = n := by
    rw [List.length_append]
    omega
  rw [expand,dif_pos (by rw [List.length_append]; omega),Option.some_inj]
  have hbytes : (before ++ after).take before.length ++
      List.replicate (16-(before ++ after).length) 0 ++ (before ++ after).drop before.length =
        a.s6Addr := by
    rw [List.take_left,List.drop_left,hzeros,h]
  exact In6Addr.ext_bytes hbytes

theorem flatMap_zeros (n : Nat) :
    (List.replicate n 0).flatMap wordBytes = List.replicate (2*n) 0 := by
  induction n with
  | zero => rfl
  | succ n ih =>
    rw [List.replicate_succ,List.flatMap_cons,ih]
    rfl

theorem inetPton_inetNtop (a : In6Addr) : inetPton (inetNtop a) = some a := by
  obtain ⟨hflat,hlen,hlt⟩ := flatMap_wordsOf (n := 8) a.size
  have hrun : IsRun (wordsOf a.s6Addr) (longestRun (wordsOf a.s6Addr) 0 (0,0) (0,0)) :=
    longestRun_isRun (List.drop_zero) (fun j _ hj => absurd hj (Nat.not_lt_zero j)) (.inl rfl)
      fun j _ hj => absurd hj (Nat.not_lt_zero j)
  rw [inetNtop]
  generalize longestRun (wordsOf a.s6Addr) 0 (0,0) (0,0) = best at hrun
  split
  · rw [inetPton_joined (forall₂_hexText hlt) hlen,hflat,expand_whole]
  · next hlong =>
    have hle := hrun.le_length (by omega)
    rw [hlen] at hle
    have hbefore := forall₂_hexText
      fun w (hw : w ∈ (wordsOf a.s6Addr).take best.1) => hlt w (List.mem_of_mem_take hw)
    have hcount : ((wordsOf a.s6Addr).take best.1).length = best.1 := by
      rw [List.length_take,hlen,Nat.min_eq_left (by omega)]
    have hbytes : ((wordsOf a.s6Addr).take best.1).flatMap wordBytes ++
        List.replicate (2*best.2) 0 ++ a.s6Addr.drop (2*(best.1+best.2)) = a.s6Addr := by
      have hsplit := congrArg (List.flatMap wordBytes) (hrun.split (by omega))
      rw [List.flatMap_append,List.flatMap_append,flatMap_zeros,hflat,
        flatMap_drop_wordsOf a.size hle] at hsplit
      exact hsplit.symm
    have hexpand := expand_zeros (by omega) hbytes
    rw [length_flatMap_wordBytes,hcount] at hexpand
    rw [List.append_assoc]
    refine (inetPton_double hbefore (by rw [hcount]; omega)
      (joined (tailGroups a.s6Addr best.1 best.2))).trans ?_
    rw [ptonLoop_tailGroups a.size hle (by rw [length_flatMap_wordBytes,hcount]),hcount,hexpand]

end RoundTrip

section Length

def digitsLeft : Option Nat → Nat
  | none => 3
  | some n => if n < 10 then 2 else if n < 100 then 1 else 0

theorem length_le_of_pton4Loop {src : Text} {octets result : List Nat} {octet : Option Nat}
    (hoctets : octets.length ≤ 3) (h : pton4Loop src octets octet = some result) :
    src.length ≤ digitsLeft octet+4*(3-octets.length) := by
  induction src generalizing octets octet with
  | nil => exact Nat.zero_le _
  | cons ch src ih =>
    rw [List.length_cons]
    unfold pton4Loop at h
    split at h
    · next hdigit =>
      have hch : 48 ≤ ch.toNat ∧ ch.toNat ≤ 57 := Char.isDigit_iff_toNat.mp hdigit
      cases octet with
      | none =>
        have hih := ih hoctets h
        rw [digitsLeft,if_pos (by omega)] at hih
        simp only [digitsLeft]
        omega
      | some n =>
        simp only at h
        split at h
        · exact absurd h (by simp)
        · next hn =>
          have hih := ih hoctets h
          simp only [digitsLeft] at hih ⊢
          split_ifs at hih ⊢ <;> omega
    · split at h
      · cases octet with
        | none => exact absurd h (by simp)
        | some n =>
          simp only at h
          split at h
          · exact absurd h (by simp)
          · have hih := ih (by simp; omega) h
            simp only [digitsLeft,List.length_append,List.length_singleton] at hih
            omega
      · exact absurd h (by simp)

theorem length_le_of_ptonLoop {src curtok : Text} (hcurtok : src.length ≤ curtok.length)
    {tp : List UInt8} (htp : tp.length ≤ 16) {colonp : Option Nat} {digits val : Nat}
    (hdigits : digits ≤ 4) {a : In6Addr}
    (h : ptonLoop src curtok tp colonp digits val = some a) :
    2*src.length+2*digits ≤ 5*(16-tp.length)+(if colonp.isSome then 0 else 2)+40 := by
  induction src generalizing curtok tp colonp digits val with
  | nil => simp only [List.length_nil]; omega
  | cons ch src ih =>
    rw [List.length_cons] at hcurtok ⊢
    rw [ptonLoop] at h
    split at h
    · split at h
      · exact absurd h (by simp)
      · have hih := ih (by omega) htp (by omega) h
        omega
    · split at h
      · split at h
        · split at h
          · exact absurd h (by simp)
          · next hnone =>
            have hih := ih (Nat.le_refl _) htp (Nat.zero_le 4) h
            rw [if_neg hnone]
            simp only [Option.isSome_some,if_true] at hih
            omega
        · split at h
          · exact absurd h (by simp)
          · have hih := ih (Nat.le_refl _) (by simp; omega) (Nat.zero_le 4) h
            simp only [List.length_append,length_wordBytes] at hih
            omega
      · split at h
        · obtain ⟨octets,hoctets,-⟩ := Option.bind_eq_some_iff.mp h
          obtain ⟨result,hresult,-⟩ := Option.map_eq_some_iff.mp hoctets
          have hquad := length_le_of_pton4Loop (by simp) hresult
          simp only [digitsLeft,List.length_nil] at hquad
          omega
        · exact absurd h (by simp)

theorem length_le_of_inetPton {t : Text} {a : In6Addr} (h : inetPton t = some a) :
    t.length ≤ 62 := by
  have hloop : ∀ {src : Text}, ptonLoop src src [] none 0 0 = some a → src.length ≤ 61 := by
    intro src hsrc
    have hlen := length_le_of_ptonLoop (Nat.le_refl _) (by simp) (by simp) hsrc
    simp only [List.length_nil,Option.isSome_none,Bool.false_eq_true,if_false] at hlen
    omega
  unfold inetPton at h
  split at h
  · exact absurd h (by simp)
  · split at h
    · exact Nat.succ_le_succ (hloop h)
    · exact absurd h (by simp)
  · exact Nat.le_succ_of_le (hloop h)

end Length

end Inet6
