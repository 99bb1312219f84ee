import EthAgent.LanBridge
import EthAgent.Lib.Buffers

/-!
`removeSubStrWithSpace` on the bytes of its buffers. `strtok` cuts the string in place,
and the last character is looked at even if there is none.
-/

set_option autoImplicit false

namespace EthAgent.MemberRemoval
open CString Runs Tokens Buffers

def keepToken (sub : Text) (len : Nat) (tmp token : Bytes) : Option Bytes := do
  let found ← strstr token sub
  if found then some tmp
  else
    let used ← strlen tmp
    let tmp ← Buffers.strncat tmp token (len-used-1)
    let used ← strlen tmp
    Buffers.strncat tmp [' ',nul] (len-used-1)

/-- The loop: `str`, where `strtok` goes on, and `tmp`. The fuel bounds the tokens. -/
def tokenLoop (sub : Text) (len : Nat) : Nat → Bytes → Nat → Bytes → Option (Bytes × Bytes)
  | 0, str, _, tmp => some (str,tmp)
  | fuel+1, str, next, tmp => do
    let call ← strtok isBlank str next
    match call.token with
    | none => some (call.bytes,tmp)
    | some token =>
      let tmp ← keepToken sub len tmp (call.bytes.drop token)
      tokenLoop sub len fuel call.bytes call.next tmp

/-- The blank at the end. Of an empty string, it is looked for in front of the buffer. -/
def dropLastBlank (str : Bytes) : Option Bytes := do
  let len ← strlen str
  let last ← load str ((len : Int)-1)
  if last = ' ' then store str ((len : Int)-1) nul else some str

/-- `removeSubStrWithSpace`, of strings that are not `NULL`. `allocated` says that `malloc`
succeeds. -/
def removeSubStrWithSpace (allocated : Bool) (str : Bytes) (sub : Text) :
    Option (Bool × Bytes) := do
  let len := (← strlen str)+1
  if allocated then
    let tmp := List.replicate len nul
    let (str,tmp) ← tokenLoop sub len len str 0 tmp
    let str ← snprintfStr str strSize tmp
    let str ← dropLastBlank str
    some (true,str)
  else some (false,str)

/-- A buffer of `STR_SIZE` bytes with a string in it. -/
structure StrBuf where
  bytes : Bytes
  size : bytes.length = strSize
  terminated : nul ∈ bytes

def StrBuf.text (str : StrBuf) : Text := untilNul str.bytes

theorem StrBuf.holds (str : StrBuf) : Holds str.bytes str.text := holds_untilNul str.terminated

theorem StrBuf.length_text (str : StrBuf) : str.text.length < strSize := by
  rw [← str.size]
  exact str.holds.length_lt

theorem strncat_room {tmp src : Bytes} {w t : Text} (htmp : Holds tmp w) (hsrc : Holds src t) :
    ∃ tmp', Buffers.strncat tmp src (tmp.length-w.length-1) = some tmp' ∧
      tmp'.length = tmp.length ∧
      Holds tmp' (EthAgent.strncat w t (tmp.length-w.length-1)) := by
  have hlt := htmp.length_lt
  have hroom : w.length+(t.take (tmp.length-w.length-1)).length < tmp.length := by
    rw [List.length_take]
    omega
  exact htmp.strncat hsrc hroom

theorem keepToken_spec (sub : Text) {w t : Text} {tmp token : Bytes} (htmp : Holds tmp w)
    (htoken : Holds token t) :
    ∃ tmp', keepToken sub tmp.length tmp token = some tmp' ∧ tmp'.length = tmp.length ∧
      Holds tmp' (EthAgent.keepToken sub tmp.length w t) := by
  have hfound : strstr token sub = some (decide (sub <:+: t)) := by
    rw [strstr,htoken.readStr,Option.map_some]
  simp only [keepToken,hfound,Option.bind_eq_bind,Option.bind_some]
  unfold EthAgent.keepToken
  by_cases hin : sub <:+: t
  · simp only [hin,decide_true,if_true]
    exact ⟨tmp,rfl,rfl,htmp⟩
  · have hblank : Holds [' ',nul] [' '] := holds_append (by decide) []
    obtain ⟨tmp₁,h₁,hlen₁,hholds₁⟩ := strncat_room htmp htoken
    obtain ⟨tmp₂,h₂,hlen₂,hholds₂⟩ := strncat_room hholds₁ hblank
    rw [hlen₁] at h₂ hlen₂ hholds₂
    simp only [hin,decide_false,Bool.false_eq_true,if_false,htmp.strlen,h₁,hholds₁.strlen,
      Option.bind_some]
    exact ⟨tmp₂,h₂,hlen₂,hholds₂⟩

/-- The loop stays within both buffers, and `tmp` gets what the tokens of the text give. -/
theorem tokenLoop_spec (sub : Text) {fuel : Nat} (pre junk : Bytes) {l tmp : Bytes} {w : Text}
    (hfuel : l.length < fuel) (hnul : nul ∉ l) (htmp : Holds tmp w) :
    ∃ str' tmp', tokenLoop sub tmp.length fuel (pre ++ (l ++ nul :: junk)) pre.length tmp =
        some (str',tmp') ∧
      str'.length = pre.length+l.length+1+junk.length ∧ tmp'.length = tmp.length ∧
      Holds tmp' (exec (EthAgent.keepToken sub tmp.length) w (tokens isBlank l)) := by
  induction fuel generalizing pre l tmp w with
  | zero => omega
  | succ fuel ih =>
    have hdelim : isBlank nul = false := by decide
    rcases strtok_cases pre junk hnul hdelim with
      ⟨hnone,s,hcall⟩ | ⟨start,t,pre',l',htokens,hcall,htoken,hlen,hless,hnul'⟩
    · rw [hnone]
      refine ⟨pre ++ (l ++ nul :: junk),tmp,?_,by simp; omega,rfl,htmp⟩
      simp only [tokenLoop,hcall,Option.bind_eq_bind,Option.bind_some]
    · obtain ⟨tmp₁,hkeep,hlen₁,hholds₁⟩ := keepToken_spec sub htmp htoken
      obtain ⟨str',tmp',hrest,hstr,htmp',hholds⟩ := ih pre' (by omega) hnul' hholds₁
      rw [hlen₁] at hrest htmp' hholds
      rw [htokens,exec_cons]
      refine ⟨str',tmp',?_,by omega,htmp',hholds⟩
      simp only [tokenLoop,hcall,Option.bind_eq_bind,Option.bind_some,hkeep]
      exact hrest

theorem dropLastBlank_empty {str : Bytes} (h : Holds str []) : dropLastBlank str = none := by
  have hload : load str (((([] : Text).length : Nat) : Int)-1) = none := load_neg (by decide)
  simp only [dropLastBlank,h.strlen,Option.bind_eq_bind,Option.bind_some,hload,Option.bind_none]

/-- The look at the last character, on the bytes, does what it does on the text. -/
theorem dropLastBlank_spec {str : Bytes} {t : Text} (h : Holds str t) :
    match EthAgent.dropLastBlank t with
    | none => dropLastBlank str = none
    | some t' => ∃ str', dropLastBlank str = some str' ∧ str'.length = str.length ∧
        Holds str' t' := by
  rcases List.eq_nil_or_concat' t with rfl | ⟨init,c,rfl⟩
  · exact dropLastBlank_empty h
  · have hlen := h.strlen
    obtain ⟨hnul,r,rfl⟩ := h
    have hplace : ((init ++ [c]).length : Int)-1 = init.length := by simp
    have hbytes : init ++ [c] ++ nul :: r = init ++ c :: (nul :: r) := by simp
    have hinit : nul ∉ init := fun hmem => hnul (List.mem_append_left _ hmem)
    rw [dropLastBlank_concat]
    simp only [dropLastBlank,hlen,Option.bind_eq_bind,Option.bind_some,hplace]
    rw [hbytes,load_append,Option.bind_some]
    by_cases hc : c = ' '
    · rw [if_pos hc,if_pos hc,store_append]
      exact ⟨_,rfl,by simp,holds_append hinit (nul :: r)⟩
    · rw [if_neg hc,if_neg hc,← hbytes]
      exact ⟨_,rfl,rfl,holds_append hnul r⟩

def keptText (str : StrBuf) (sub : Text) : Text :=
  (exec (EthAgent.keepToken sub (str.text.length+1)) [] (tokens isBlank str.text)).take
    (strSize-1)

/-- Up to the look at the last character, a call stays within its buffers. -/
theorem removeSubStr_eq (str : StrBuf) (sub : Text) :
    ∃ copied : Bytes, copied.length = strSize ∧ Holds copied (keptText str sub) ∧
      removeSubStrWithSpace true str.bytes sub =
        (dropLastBlank copied).map fun str => (true,str) := by
  obtain ⟨hnul,junk,hbytes⟩ := str.holds
  have hlen : strlen str.bytes = some str.text.length := str.holds.strlen
  have htmp : Holds (List.replicate (str.text.length+1) nul) [] :=
    holds_append (by simp) (List.replicate str.text.length nul)
  obtain ⟨str₁,tmp₁,hloop,hstr₁,-,hholds₁⟩ :=
    tokenLoop_spec sub [] junk (Nat.lt_succ_self str.text.length) hnul htmp
  rw [List.nil_append,List.length_replicate,← hbytes,List.length_nil] at hloop
  rw [List.length_replicate] at hholds₁
  have hsize : str₁.length = strSize := by
    have h := congrArg List.length hbytes
    rw [str.size] at h
    simp only [List.length_append,List.length_cons,List.length_nil] at h hstr₁
    omega
  have hpos : 0 < strSize := by decide
  obtain ⟨str₂,hprint,hstr₂,hholds₂⟩ := hholds₁.snprintfStr hpos (Nat.le_of_eq hsize.symm)
  refine ⟨str₂,hstr₂.trans hsize,hholds₂,?_⟩
  simp only [removeSubStrWithSpace,hlen,Option.bind_eq_bind,Option.bind_some,if_true,hloop,
    hprint]
  cases dropLastBlank str₂ <;> rfl

/-- A call does to the bytes what it is said to do to the text, and leaves the buffer where
that has no result. -/
theorem removeSubStr_refines (allocated : Bool) (str : StrBuf) (sub : Text) :
    match EthAgent.removeSubStrWithSpace allocated str.text sub with
    | none => removeSubStrWithSpace allocated str.bytes sub = none
    | some (ret,text) => ∃ str' : StrBuf,
        removeSubStrWithSpace allocated str.bytes sub = some (ret,str'.bytes) ∧
          str'.text = text := by
  cases allocated with
  | false =>
    exact ⟨str,by simp [removeSubStrWithSpace,str.holds.strlen],rfl⟩
  | true =>
    obtain ⟨copied,hsize,hholds,hcall⟩ := removeSubStr_eq str sub
    have hdrop := dropLastBlank_spec hholds
    have htext : EthAgent.removeSubStrWithSpace true str.text sub =
        (EthAgent.dropLastBlank (keptText str sub)).map fun text => (true,text) := rfl
    rw [htext,hcall]
    cases hlast : EthAgent.dropLastBlank (keptText str sub) with
    | none =>
      rw [hlast] at hdrop
      exact congrArg _ hdrop
    | some text =>
      rw [hlast] at hdrop
      obtain ⟨bytes,hbytes,hlen,hholds'⟩ := hdrop
      refine ⟨⟨bytes,hlen.trans hsize,hholds'.nul_mem⟩,?_,hholds'.untilNul⟩
      rw [hbytes]
      rfl

/-- A call stays within its buffers, and the tokens without the name are there as they
were; all of them are if the temporary copy cannot be made. -/
def RemovedInPlace (allocated : Bool) (str : StrBuf) (sub : CStr) : Prop :=
  ∃ ret, ∃ str' : StrBuf,
    removeSubStrWithSpace allocated str.bytes sub.text = some (ret,str'.bytes) ∧
      tokens isBlank str'.text =
        if allocated then (tokens isBlank str.text).filter fun t => ¬ sub.text <:+: t
        else tokens isBlank str.text

theorem removed_in_place_iff (allocated : Bool) (str : StrBuf) (sub : CStr) :
    RemovedInPlace allocated str sub ↔
      (allocated = true → ∃ t ∈ tokens isBlank str.text, ¬ sub.text <:+: t) := by
  have hrefines := removeSubStr_refines allocated str sub.text
  cases allocated with
  | false =>
    obtain ⟨str',hcall,htext⟩ := hrefines
    exact iff_of_true ⟨false,str',hcall,by rw [htext]; rfl⟩ (by simp)
  | true =>
    by_cases h : ∃ t ∈ tokens isBlank str.text, ¬ sub.text <:+: t
    · obtain ⟨text,hremoved,htokens⟩ := removeSubStr_kept str.length_text h
      rw [hremoved] at hrefines
      obtain ⟨str',hcall,htext⟩ := hrefines
      exact iff_of_true ⟨true,str',hcall,by rw [htext,htokens,if_pos rfl]⟩ fun _ => h
    · have hall : ∀ t ∈ tokens isBlank str.text, sub.text <:+: t := by simpa using h
      rw [removeSubStr_none str.length_text hall] at hrefines
      refine iff_of_false ?_ fun hkept => h (hkept rfl)
      rintro ⟨ret,str',hcall,-⟩
      rw [hrefines] at hcall
      exact absurd hcall (by simp)

/-- `newPSMValue`, zeroed, with a value in it that `strncpy` puts there. -/
def newPSMValue (acPSMValue : CStr) : StrBuf where
  bytes := field strSize (acPSMValue.text.take (strSize-1))
  size := length_field _ _
  terminated := by
    have hle : (acPSMValue.text.take (strSize-1)).length ≤ strSize-1 := List.length_take_le _ _
    have hpos : 0 < strSize-(acPSMValue.text.take (strSize-1)).length := by
      have h : strSize = 512 := rfl
      omega
    rw [field_of_le (by omega)]
    exact List.mem_append_right _ (List.mem_replicate.mpr ⟨Nat.ne_of_gt hpos,rfl⟩)

def eth4 : CStr := ⟨['e','t','h','4'],by decide⟩

/-- The only member of the list is taken out. -/
theorem last_member_removed_outside :
    removeSubStrWithSpace true (newPSMValue eth4).bytes eth4.text = none ∧
      ¬RemovedInPlace true (newPSMValue eth4) eth4 := by
  have hcall : removeSubStrWithSpace true (newPSMValue eth4).bytes eth4.text = none := by
    decide +kernel
  refine ⟨hcall,?_⟩
  rintro ⟨ret,str',h,-⟩
  exact absurd (hcall.symm.trans h) (by simp)

end EthAgent.MemberRemoval
