import EthAgent.Lib.CString
import EthAgent.Lib.Tokens

/-!
The string functions of C on the bytes of objects in memory. A function has no result
where it reads or writes outside of an object.
-/

set_option autoImplicit false

namespace Buffers
open CString Tokens

/-- The bytes of an object, or of what a pointer into it points at. -/
abbrev Bytes := List Char

def load (b : Bytes) (i : Int) : Option Char := if 0 ≤ i then b[i.toNat]? else none

def store (b : Bytes) (i : Int) (c : Char) : Option Bytes :=
  if 0 ≤ i ∧ i < b.length then some (b.set i.toNat c) else none

def writeAt (b : Bytes) (i : Nat) (t : Bytes) : Option Bytes :=
  if i+t.length ≤ b.length then some (b.take i ++ t ++ b.drop (i+t.length)) else none

/-- How many bytes come before the first that fails the test. -/
def span (p : Char → Bool) : Bytes → Option Nat
  | [] => none
  | c :: b => if p c then (span p b).map (·+1) else some 0

def strlen (b : Bytes) : Option Nat := span (· ≠ nul) b

def strspn (accept : Char → Bool) (b : Bytes) : Option Nat :=
  span (fun c => c ≠ nul ∧ accept c) b

def strcspn (reject : Char → Bool) (b : Bytes) : Option Nat :=
  span (fun c => c ≠ nul ∧ ¬reject c) b

def readStr (b : Bytes) : Option Text := (strlen b).map b.take

/-- The same, but of `n` characters at most. -/
def readUpTo : Nat → Bytes → Option Text
  | 0, _ => some []
  | _+1, [] => none
  | n+1, c :: b => if c = nul then some [] else (readUpTo n b).map (c :: ·)

def strstr (haystack : Bytes) (needle : Text) : Option Bool :=
  (readStr haystack).map fun t => decide (needle <:+: t)

def strncat (dest src : Bytes) (n : Nat) : Option Bytes := do
  let len ← strlen dest
  let t ← readUpTo n src
  writeAt dest len (t ++ [nul])

/-- `snprintf` with the format `%s`. -/
def snprintfStr (dest : Bytes) (size : Nat) (src : Bytes) : Option Bytes := do
  let t ← readStr src
  writeAt dest 0 (t.take (size-1) ++ [nul])

/-- `strcat_s`: whether it succeeds, and the destination. A size of 0 or above `RSIZE_MAX`
is refused; where the text does not fit, the destination becomes empty. -/
def strcatS (rsizeMax : Nat) (dest : Bytes) (dmax : Nat) (src : Text) : Option (Bool × Bytes) :=
  if dmax = 0 ∨ rsizeMax < dmax then some (false,dest)
  else do
    let used ← (readUpTo dmax dest).map List.length
    if used+src.length < dmax then (writeAt dest used (src ++ [nul])).map fun dest => (true,dest)
    else (writeAt dest 0 [nul]).map fun dest => (false,dest)

/-- What a call of `strtok` leaves: the bytes, where the token begins that it returns,
and where the next call goes on. -/
structure Strtok where
  bytes : Bytes
  token : Option Nat
  next : Nat

def strtok (delim : Char → Bool) (b : Bytes) (s : Nat) : Option Strtok := do
  let start := s+(← strspn delim (b.drop s))
  let len ← strcspn delim (b.drop start)
  if len = 0 then some ⟨b,none,start⟩
  else
    let stop := start+len
    let c ← load b stop
    if c = nul then some ⟨b,some start,stop⟩
    else
      let b ← store b stop nul
      some ⟨b,some start,stop+1⟩

/-- The bytes begin with the text and a NUL behind it. -/
def Holds (b : Bytes) (t : Text) : Prop := nul ∉ t ∧ ∃ r, b = t ++ nul :: r

variable {b dest src : Bytes} {t w : Text}

theorem load_append (l r : Bytes) (c : Char) : load (l ++ c :: r) l.length = some c := by
  simp [load]

theorem load_neg {i : Int} (hi : i < 0) : load b i = none := if_neg (by omega)

theorem store_append (l r : Bytes) (c d : Char) :
    store (l ++ c :: r) l.length d = some (l ++ d :: r) := by
  have hlt : (l.length : Int) < (l ++ c :: r).length := by simp
  rw [store,if_pos ⟨Int.natCast_nonneg _,hlt⟩,Int.toNat_natCast,
    List.set_append_right _ _ (Nat.le_refl _)]
  simp

theorem length_writeAt {i : Nat} {b' : Bytes} (h : writeAt b i t = some b') :
    b'.length = b.length := by
  unfold writeAt at h
  split at h
  · rw [← Option.some_inj.mp h]
    simp only [List.length_append,List.length_take,List.length_drop]
    omega
  · exact absurd h (by simp)

theorem span_append {p : Char → Bool} {l r : Bytes} {c : Char} (hl : ∀ d ∈ l, p d = true)
    (hc : p c = false) : span p (l ++ c :: r) = some l.length := by
  induction l with
  | nil => simp [span,hc]
  | cons d l ih =>
    rw [List.cons_append,span,if_pos (hl d List.mem_cons_self),
      ih fun e he => hl e (List.mem_cons_of_mem d he)]
    rfl

theorem Holds.strlen (h : Holds b t) : strlen b = some t.length := by
  obtain ⟨hnul,r,rfl⟩ := h
  exact span_append (fun d hd => by simpa using fun he : d = nul => hnul (he ▸ hd)) (by simp)

theorem Holds.readStr (h : Holds b t) : readStr b = some t := by
  rw [Buffers.readStr,h.strlen]
  obtain ⟨-,r,rfl⟩ := h
  simp

theorem Holds.untilNul (h : Holds b t) : untilNul b = t := by
  obtain ⟨hnul,r,rfl⟩ := h
  rw [CString.untilNul,List.takeWhile_append_of_pos]
  · simp
  · exact fun c hc => by simpa using fun he : c = nul => hnul (he ▸ hc)

theorem Holds.length_lt (h : Holds b t) : t.length < b.length := by
  obtain ⟨-,r,rfl⟩ := h
  simp

theorem holds_untilNul (h : nul ∈ b) : Holds b (CString.untilNul b) := by
  refine ⟨fun hmem => ?_,(b.dropWhile (· ≠ nul)).tail,?_⟩
  · simpa using List.mem_takeWhile_imp hmem
  · have hsplit : CString.untilNul b ++ b.dropWhile (· ≠ nul) = b :=
      List.takeWhile_append_dropWhile
    have hne : b.dropWhile (· ≠ nul) ≠ [] := by
      intro hnil
      rw [hnil,List.append_nil] at hsplit
      rw [← hsplit] at h
      simpa using List.mem_takeWhile_imp h
    have hhead : (b.dropWhile (· ≠ nul)).head hne = nul := by
      simpa using List.head_dropWhile_not _ hne
    conv_lhs => rw [← hsplit]
    rw [← List.cons_head_tail hne,hhead]
    rfl

theorem holds_append (h : nul ∉ t) (r : Bytes) : Holds (t ++ nul :: r) t := ⟨h,r,rfl⟩

theorem Holds.nul_mem (h : Holds b t) : nul ∈ b := by
  obtain ⟨-,r,rfl⟩ := h
  simp

theorem Holds.readUpTo (h : Holds b t) (n : Nat) : readUpTo n b = some (t.take n) := by
  obtain ⟨hnul,r,rfl⟩ := h
  induction n generalizing t with
  | zero => rfl
  | succ n ih =>
    cases t with
    | nil => simp [Buffers.readUpTo]
    | cons c t =>
      have hc : c ≠ nul := fun he => hnul (he ▸ List.mem_cons_self)
      have hrest := ih fun hmem => hnul (List.mem_cons_of_mem c hmem)
      rw [List.cons_append,Buffers.readUpTo,if_neg hc,hrest]
      rfl

theorem writeAt_holds {i : Nat} (hi : i+t.length < b.length) (hkept : nul ∉ b.take i)
    (ht : nul ∉ t) :
    ∃ b', writeAt b i (t ++ [nul]) = some b' ∧ b'.length = b.length ∧
      Holds b' (b.take i ++ t) := by
  have hfits : i+(t ++ [nul]).length ≤ b.length := by simp; omega
  have hwrite : writeAt b i (t ++ [nul]) =
      some (b.take i ++ (t ++ [nul]) ++ b.drop (i+(t ++ [nul]).length)) := if_pos hfits
  refine ⟨_,hwrite,length_writeAt hwrite,?_⟩
  refine ⟨by simp [hkept,ht],b.drop (i+(t ++ [nul]).length),by simp⟩

theorem Holds.writeAt (hdest : Holds dest w) (ht : nul ∉ t)
    (hroom : w.length+t.length < dest.length) :
    ∃ dest', writeAt dest w.length (t ++ [nul]) = some dest' ∧ dest'.length = dest.length ∧
      Holds dest' (w ++ t) := by
  have htake : dest.take w.length = w := by
    obtain ⟨-,r,rfl⟩ := hdest
    simp
  have hwrite := writeAt_holds hroom (by rw [htake]; exact hdest.1) ht
  rwa [htake] at hwrite

theorem Holds.strncat (hdest : Holds dest w) (hsrc : Holds src t) {n : Nat}
    (hroom : w.length+(t.take n).length < dest.length) :
    ∃ dest', strncat dest src n = some dest' ∧ dest'.length = dest.length ∧
      Holds dest' (w ++ t.take n) := by
  have ht : nul ∉ t.take n := fun h => hsrc.1 (List.mem_of_mem_take h)
  obtain ⟨dest',hwrite,hkept⟩ := hdest.writeAt ht hroom
  refine ⟨dest',?_,hkept⟩
  simp only [Buffers.strncat,hdest.strlen,hsrc.readUpTo n,Option.bind_eq_bind,Option.bind_some]
  exact hwrite

theorem Holds.snprintfStr (hsrc : Holds src t) {size : Nat} (hpos : 0 < size)
    (hsize : size ≤ dest.length) :
    ∃ dest', snprintfStr dest size src = some dest' ∧ dest'.length = dest.length ∧
      Holds dest' (t.take (size-1)) := by
  have hroom : 0+(t.take (size-1)).length < dest.length := by
    rw [List.length_take]
    omega
  have ht : nul ∉ t.take (size-1) := fun h => hsrc.1 (List.mem_of_mem_take h)
  obtain ⟨dest',hwrite,hlen,hholds⟩ := writeAt_holds hroom (by simp) ht
  refine ⟨dest',?_,hlen,by simpa using hholds⟩
  simp only [Buffers.snprintfStr,hsrc.readStr,Option.bind_eq_bind,Option.bind_some]
  exact hwrite

theorem strcatS_refused {rsizeMax dmax : Nat} (h : rsizeMax < dmax) :
    strcatS rsizeMax dest dmax t = some (false,dest) := if_pos (.inr h)

theorem Holds.strcatS (hdest : Holds dest w) (ht : nul ∉ t) {rsizeMax dmax : Nat}
    (hroom : w.length+t.length < dmax) (hdmax : dmax ≤ dest.length) (hmax : dmax ≤ rsizeMax) :
    ∃ dest', strcatS rsizeMax dest dmax t = some (true,dest') ∧
      dest'.length = dest.length ∧ Holds dest' (w ++ t) := by
  obtain ⟨dest',hwrite,hkept⟩ := hdest.writeAt ht (Nat.lt_of_lt_of_le hroom hdmax)
  have hread : w.take dmax = w := List.take_of_length_le (by omega)
  refine ⟨dest',?_,hkept⟩
  rw [Buffers.strcatS,if_neg (by omega),hdest.readUpTo,hread]
  simp only [Option.map_some,Option.bind_eq_bind,Option.bind_some,if_pos hroom,hwrite]

section Strtok

variable {delim : Char → Bool}

theorem strspn_eq {l r : Bytes} {c : Char} (hl : ∀ d ∈ l, delim d = true) (hnul : nul ∉ l)
    (hc : delim c = false) : strspn delim (l ++ c :: r) = some l.length :=
  span_append (fun d hd => by simpa [hl d hd] using fun he : d = nul => hnul (he ▸ hd))
    (by simp [hc])

theorem strcspn_eq {l r : Bytes} {c : Char} (hl : ∀ d ∈ l, delim d = false) (hnul : nul ∉ l)
    (hc : c = nul ∨ delim c = true) : strcspn delim (l ++ c :: r) = some l.length :=
  span_append (fun d hd => by simpa [hl d hd] using fun he : d = nul => hnul (he ▸ hd))
    (by rcases hc with rfl | hc <;> simp [*])

/-- A call before a token, with `c` behind it: a NUL, or a delimiter that becomes one. -/
theorem strtok_token (pre : Bytes) {lead t r : Bytes} {c : Char}
    (hblank : ∀ d ∈ lead, delim d = true) (ht : IsToken delim t) (hnul : nul ∉ lead ++ t)
    (hc : c = nul ∨ delim c = true) :
    strtok delim (pre ++ (lead ++ (t ++ c :: r))) pre.length =
      some ⟨(pre ++ lead ++ t) ++ nul :: r,some (pre.length+lead.length),
        if c = nul then (pre ++ lead ++ t).length else (pre ++ lead ++ t ++ [nul]).length⟩ := by
  have hlead : nul ∉ lead := fun h => hnul (List.mem_append_left _ h)
  have htnul : nul ∉ t := fun h => hnul (List.mem_append_right _ h)
  have hspan : strspn delim (lead ++ (t ++ c :: r)) = some lead.length := by
    obtain ⟨d,t',rfl⟩ := List.exists_cons_of_ne_nil ht.nonempty
    exact strspn_eq hblank hlead (ht.plain d List.mem_cons_self)
  have hlen : strcspn delim (t ++ c :: r) = some t.length := strcspn_eq ht.plain htnul hc
  have hne : t.length ≠ 0 := fun h => ht.nonempty (List.eq_nil_of_length_eq_zero h)
  have hstop : pre.length+lead.length+t.length = (pre ++ lead ++ t).length := by simp; omega
  have hbytes : pre ++ (lead ++ (t ++ c :: r)) = (pre ++ lead ++ t) ++ c :: r := by simp
  have hdrop : (pre ++ (lead ++ (t ++ c :: r))).drop (pre.length+lead.length) = t ++ c :: r := by
    rw [← List.drop_drop,List.drop_left,List.drop_left]
  simp only [strtok,List.drop_left,hspan,Option.bind_eq_bind,Option.bind_some,hdrop,hlen,
    if_neg hne,hstop]
  rw [hbytes,load_append,Option.bind_some,store_append,Option.bind_some]
  by_cases hcn : c = nul
  · rw [if_pos hcn,if_pos hcn,hcn]
  · have hnext : (pre ++ lead ++ t ++ [nul]).length = (pre ++ lead ++ t).length+1 :=
      List.length_append
    rw [if_neg hcn,if_neg hcn,hnext]

/-- A call on the text `l` behind `pre`, without a token in it, or with the token `t`
first, which it terminates. -/
theorem strtok_cases (pre junk : Bytes) {l : Bytes} (hnul : nul ∉ l)
    (hdelim : delim nul = false) :
    (tokens delim l = [] ∧ ∃ s, strtok delim (pre ++ (l ++ nul :: junk)) pre.length =
      some ⟨pre ++ (l ++ nul :: junk),none,s⟩) ∨
    ∃ start t pre' l', tokens delim l = t :: tokens delim l' ∧
      strtok delim (pre ++ (l ++ nul :: junk)) pre.length =
        some ⟨pre' ++ (l' ++ nul :: junk),some start,pre'.length⟩ ∧
      Holds ((pre' ++ (l' ++ nul :: junk)).drop start) t ∧
      pre'.length+l'.length = pre.length+l.length ∧ l'.length < l.length ∧ nul ∉ l' := by
  have hlead : l.takeWhile delim ++ l.dropWhile delim = l := List.takeWhile_append_dropWhile
  have hblank : ∀ d ∈ l.takeWhile delim, delim d = true := fun d => List.mem_takeWhile_imp
  generalize l.takeWhile delim = lead at hlead hblank
  rcases tokens_cases delim l with ⟨hdrop,hnone⟩ | ⟨t,rest,ht,hdrop,hrest,htokens⟩
  · rw [hdrop,List.append_nil] at hlead
    subst hlead
    refine .inl ⟨hnone,pre.length+lead.length,?_⟩
    have hspan := strspn_eq (r := junk) hblank hnul hdelim
    have hstop : strcspn delim (nul :: junk) = some 0 :=
      strcspn_eq (l := []) (by simp) (by simp) (.inl rfl)
    simp only [strtok,List.drop_left,hspan,Option.bind_eq_bind,Option.bind_some,
      ← List.drop_drop,hstop,if_true]
  · rw [hdrop,← List.append_assoc] at hlead
    subst hlead
    have hfirst : nul ∉ lead ++ t := fun h => hnul (List.mem_append_left _ h)
    have htnul : nul ∉ t := fun h => hfirst (List.mem_append_right _ h)
    have hpos := List.length_pos_iff.mpr ht.nonempty
    have hbehind : ∀ r, ((pre ++ lead ++ t) ++ r).drop (pre.length+lead.length) = t ++ r := by
      intro r
      rw [List.append_assoc,← List.length_append,List.drop_left]
    right
    cases rest with
    | nil =>
      have hcall := strtok_token pre (r := junk) hblank ht hfirst (.inl rfl)
      refine ⟨pre.length+lead.length,t,pre ++ lead ++ t,[],htokens,?_,?_,?_,?_,by simp⟩
      · simpa using hcall
      · rw [List.nil_append,hbehind]
        exact holds_append htnul junk
      · simp
      · simp; omega
    | cons y r =>
      have hy : y ≠ nul := fun he => hnul (by simp [he])
      have hdel : delim y = true := hrest y (by simp)
      have hcall := strtok_token pre (r := r ++ nul :: junk) hblank ht hfirst
        (.inr hdel)
      rw [if_neg hy] at hcall
      refine ⟨pre.length+lead.length,t,pre ++ lead ++ t ++ [nul],r,?_,?_,?_,?_,?_,?_⟩
      · rw [htokens]
        congr 1
        exact tokens_sep hdel [] r
      · simpa using hcall
      · rw [List.append_assoc _ [nul],hbehind]
        exact holds_append htnul _
      · simp; omega
      · simp; omega
      · exact fun h => hnul (by simp [h])

end Strtok

end Buffers
