import EthAgent.Lib.Fgets
import EthAgent.Lib.Latest
import EthAgent.Lib.Scanf
import EthAgent.Lib.Tokens

/-!
The mapping table of the ports, from which `GetEthPhyInterfaceName` takes the name of
an interface. Its rows look like `LogicalPort=1 LogicalName=eth0 Type=PHY
BaseInterface=eth0`.
-/

set_option autoImplicit false

namespace EthAgent
open CString Fgets Latest Scanf Tokens

def strstr (sub : Text) : Text → Option Text
  | [] => if sub = [] then some [] else none
  | c :: t => if sub <+: c :: t then some (c :: t) else strstr sub t

theorem strstr_isSome_iff (sub t : Text) : (strstr sub t).isSome ↔ sub <:+: t := by
  induction t with
  | nil =>
    rw [strstr,List.infix_nil]
    split <;> simp [*]
  | cons c t ih =>
    rw [strstr,List.infix_cons_iff,← ih]
    split <;> simp [*]

/-- The arrays that the rows are scanned into. What stands behind the NUL counts in
`logicalName` only. -/
structure MapArrays where
  logicalPort : Text
  logicalName : Text
  typeInterface : Text

def zeroedArrays : MapArrays := ⟨[],List.replicate 64 nul,[]⟩

def overwrite (bytes word : Text) : Text := word ++ nul :: bytes.drop (word.length+1)

/-- `sscanf` with `%63s %63s %63s`. -/
def sscanfRow (s : MapArrays) (data : Text) : MapArrays :=
  match scanWord 63 data with
  | none => s
  | some (port,t) =>
    match scanWord 63 t with
    | none => { s with logicalPort := port }
    | some (name,t) =>
      match scanWord 63 t with
      | none => { s with logicalPort := port, logicalName := overwrite s.logicalName name }
      | some (type,_) => ⟨port,overwrite s.logicalName name,type⟩

/-- `invalid`: no NUL is left in `ifname`, or the byte in front of it was written. -/
inductive IfnameResult where
  | failure
  | success (ifname : Text)
  | invalid
  deriving DecidableEq

def logicalNameKey : Text := "LogicalName=".toList
def baseInterfaceKey : Text := "BaseInterface=".toList
def phy : Text := "PHY".toList

def copyName (ifnameLength : Nat) (src : Text) : IfnameResult :=
  if src.length < ifnameLength then .success src else .invalid

/-- `strncpy`, and a NUL in place of the last character. -/
def copyTrimmed (ifnameLength : Nat) (src : Text) : IfnameResult :=
  if src.length < ifnameLength ∧ src ≠ [] then .success src.dropLast else .invalid

def mappingLoop (st : IntStore) (index : Int) (ifnameLength : Nat) :
    MapArrays → List Text → IfnameResult
  | _, [] => .failure
  | s, data :: rest =>
    let s := sscanfRow s data
    match strstr ['='] s.logicalPort with
    | none => mappingLoop st index ifnameLength s rest
    | some p =>
      if index = st.store (atoi (p.drop 1)) then
        if phy <:+: s.typeInterface then
          match strstr baseInterfaceKey data with
          | none => mappingLoop st index ifnameLength s rest
          | some p => copyTrimmed ifnameLength (p.drop baseInterfaceKey.length)
        else copyName ifnameLength (untilNul (s.logicalName.drop logicalNameKey.length))
      else mappingLoop st index ifnameLength s rest

/-- `GetEthPhyInterfaceName`, of the file where it opens, up to what follows for Ethernet WAN. -/
def getEthPhyInterfaceName (st : IntStore) (file : Option Text) (index : Int)
    (ifnameLength : Nat) : IfnameResult :=
  match file with
  | none => .failure
  | some text => mappingLoop st index ifnameLength zeroedArrays (strings 256 text)

def rowPort (line : Text) : Option Int :=
  (tokens isSpace line).head?.bind fun port => (strstr ['='] port).map fun p => atoi (p.drop 1)

def valueOf (key column : Text) : Option Text :=
  if key <+: column then some (column.drop key.length) else none

/-- The interface name of a row, which may lack it. -/
def rowName (line : Text) : Option Text :=
  if phy <:+: ((tokens isSpace line)[2]?).getD [] then
    (tokens isSpace line).findSome? (valueOf baseInterfaceKey)
  else ((tokens isSpace line)[1]?).bind (valueOf logicalNameKey)

def mappedName (text : Text) (index : Int) : Option Text :=
  ((text.splitOn '\n').find? fun line => rowPort line = some index).bind rowName

def mappedResult (text : Text) (index : Int) : IfnameResult :=
  (mappedName text index).elim .failure .success

/-- The word in place `k` that `%63s` finds in a line. -/
def wordAt : Nat → Text → Option Text
  | 0, t => (scanWord 63 t).map Prod.fst
  | k+1, t => (scanWord 63 t).bind fun r => wordAt k r.2

/-- What the lines leave in an array: the word of the last line that has one in place `k`. -/
def held (k : Nat) (lines : List Text) : Text := (latest (wordAt k) lines).getD []

def heldPort (st : IntStore) (lines : List Text) : Option Int :=
  (strstr ['='] (held 0 lines)).map fun p => st.store (atoi (p.drop 1))

/-- The string that the lines leave behind the twelfth byte of `logicalName`. -/
def heldName (lines : List Text) : Text :=
  untilNul (((lines.filterMap (wordAt 1)).foldl overwrite (List.replicate 64 nul)).drop
    logicalNameKey.length)

def baseText (data : Text) : Option Text :=
  (strstr baseInterfaceKey data).map fun p => p.drop baseInterfaceKey.length

theorem wordAt_of_none {t : Text} (h : scanWord 63 t = none) (k : Nat) : wordAt k t = none := by
  cases k with
  | zero => rw [wordAt,h,Option.map_none]
  | succ k => rw [wordAt,h,Option.bind_none]

theorem wordAt_zero {t t' word : Text} (h : scanWord 63 t = some (word,t')) :
    wordAt 0 t = some word := by
  rw [wordAt,h,Option.map_some]

theorem wordAt_succ {t t' word : Text} (h : scanWord 63 t = some (word,t')) (k : Nat) :
    wordAt (k+1) t = wordAt k t' := by
  rw [wordAt,h,Option.bind_some]

theorem logicalPort_sscanfRow (s : MapArrays) (data : Text) :
    (sscanfRow s data).logicalPort = (wordAt 0 data).getD s.logicalPort := by
  unfold sscanfRow
  split
  · next h => rw [wordAt_of_none h,Option.getD_none]
  · next port t h =>
    rw [wordAt_zero h,Option.getD_some]
    split
    · rfl
    · split <;> rfl

theorem typeInterface_sscanfRow (s : MapArrays) (data : Text) :
    (sscanfRow s data).typeInterface = (wordAt 2 data).getD s.typeInterface := by
  unfold sscanfRow
  split
  · next h => rw [wordAt_of_none h,Option.getD_none]
  · next port t h =>
    rw [wordAt_succ h]
    split
    · next h => rw [wordAt_of_none h,Option.getD_none]
    · next name t h =>
      rw [wordAt_succ h]
      split
      · next h => rw [wordAt_of_none h,Option.getD_none]
      · next type t h => rw [wordAt_zero h,Option.getD_some]

theorem logicalName_sscanfRow (s : MapArrays) (data : Text) :
    (sscanfRow s data).logicalName =
      (wordAt 1 data).elim s.logicalName (overwrite s.logicalName) := by
  unfold sscanfRow
  split
  · next h => rw [wordAt_of_none h,Option.elim_none]
  · next port t h =>
    rw [wordAt_succ h]
    split
    · next h => rw [wordAt_of_none h,Option.elim_none]
    · next name t h =>
      rw [wordAt_zero h,Option.elim_some]
      split <;> rfl

def arraysAfter (lines : List Text) : MapArrays := lines.foldl sscanfRow zeroedArrays

theorem logicalPort_arraysAfter (lines : List Text) :
    (arraysAfter lines).logicalPort = held 0 lines :=
  get_foldl logicalPort_sscanfRow lines zeroedArrays

theorem typeInterface_arraysAfter (lines : List Text) :
    (arraysAfter lines).typeInterface = held 2 lines :=
  get_foldl typeInterface_sscanfRow lines zeroedArrays

theorem logicalName_foldl (lines : List Text) (s : MapArrays) :
    (lines.foldl sscanfRow s).logicalName =
      (lines.filterMap (wordAt 1)).foldl overwrite s.logicalName := by
  induction lines generalizing s with
  | nil => rfl
  | cons data lines ih =>
    rw [List.foldl_cons,ih,logicalName_sscanfRow]
    cases hword : wordAt 1 data with
    | none => rw [List.filterMap_cons_none hword,Option.elim_none]
    | some word => rw [List.filterMap_cons_some hword,Option.elim_some,List.foldl_cons]

theorem logicalName_arraysAfter (lines : List Text) :
    untilNul ((arraysAfter lines).logicalName.drop logicalNameKey.length) = heldName lines := by
  rw [arraysAfter,logicalName_foldl]
  rfl

variable {st : IntStore} {index : Int} {ifnameLength : Nat}

/-- What the loop returns at the line that is stored as `data`, where it stops there. -/
def returnedAt (st : IntStore) (index : Int) (ifnameLength : Nat) (lines : List Text)
    (data : Text) : Option IfnameResult :=
  if heldPort st lines = some index then
    if phy <:+: held 2 lines then (baseText data).map (copyTrimmed ifnameLength)
    else some (copyName ifnameLength (heldName lines))
  else none

theorem mappingLoop_cons {before : List Text} {line data : Text}
    (hdata : ∀ s, sscanfRow s data = sscanfRow s line) (rest : List Text) :
    mappingLoop st index ifnameLength (arraysAfter before) (data :: rest) =
      (returnedAt st index ifnameLength (before ++ [line]) data).getD
        (mappingLoop st index ifnameLength (arraysAfter (before ++ [line])) rest) := by
  have hscan : sscanfRow (arraysAfter before) data = arraysAfter (before ++ [line]) := by
    simp [arraysAfter,hdata]
  rw [mappingLoop,hscan]
  simp only [logicalPort_arraysAfter,typeInterface_arraysAfter,logicalName_arraysAfter]
  unfold returnedAt heldPort baseText
  cases hport : strstr ['='] (held 0 (before ++ [line])) with
  | none => simp
  | some p =>
    simp only [Option.map_some,Option.some_inj]
    by_cases hindex : index = st.store (atoi (p.drop 1))
    · rw [if_pos hindex,if_pos hindex.symm]
      split
      · cases strstr baseInterfaceKey data <;> rfl
      · rfl
    · rw [if_neg hindex,if_neg fun h => hindex h.symm]
      rfl

theorem wordAt_eq {t : Text} (k : Nat)
    (h : ∀ w ∈ (tokens isSpace t).take (k+1), w.length ≤ 63) :
    wordAt k t = (tokens isSpace t)[k]? := by
  induction k generalizing t with
  | zero =>
    rcases scanWord_cases 63 t with ⟨htokens,hscan⟩ | ⟨word,rest,htokens,hscan⟩
    · rw [htokens,wordAt_of_none hscan]
      rfl
    · have hword := hscan (h word (by rw [htokens]; exact List.mem_cons_self))
      rw [htokens,wordAt_zero hword]
      rfl
  | succ k ih =>
    rcases scanWord_cases 63 t with ⟨htokens,hscan⟩ | ⟨word,rest,htokens,hscan⟩
    · rw [htokens,wordAt_of_none hscan]
      rfl
    · rw [htokens,List.take_succ_cons] at h
      obtain ⟨hshort,hrest⟩ := List.forall_mem_cons.mp h
      rw [htokens,wordAt_succ (hscan hshort),ih hrest,List.getElem?_cons_succ]

/-- A line that is read at once, and whose first columns and port the variables hold. -/
structure PlainLine (line : Text) : Prop where
  isLine : IsLine 256 line
  short : ∀ w ∈ (tokens isSpace line).take 3, w.length ≤ 63
  port : ∀ n, rowPort line = some n → -2^31 ≤ n ∧ n < 2^31

/-- The type that counts after these lines: that of the last one that has a type column. -/
def typeColumn (lines : List Text) : Text :=
  (latest (fun line => (tokens isSpace line)[2]?) lines).getD []

def storedLine (line : Text) (after : List Text) : Text :=
  if after = [] then line else line ++ ['\n']

/-- The row is read as it says. By the type that counts it is a PHY row, and its
`BaseInterface=` is followed by the value and one character more, or it has no name and none
of the lines behind has the index; or it is no PHY row, and its name fits. -/
def RowReadRight (index : Int) (ifnameLength : Nat) (before : List Text) (line : Text)
    (after : List Text) : Prop :=
  if phy <:+: typeColumn (before ++ [line]) then
    match baseText (storedLine line after) with
    | some value => ∃ name last, value = name ++ [last] ∧ rowName line = some name ∧
        name.length+1 < ifnameLength
    | none => rowName line = none ∧ ∀ l ∈ after, rowPort l ≠ some index
  else ∃ name, rowName line = some name ∧ name.length < ifnameLength

def FirstRowReadRight (text : Text) (index : Int) (ifnameLength : Nat) : Prop :=
  ∀ before line after, text.splitOn '\n' = before ++ line :: after →
    rowPort line = some index → (∀ l ∈ before, rowPort l ≠ some index) →
      RowReadRight index ifnameLength before line after

/-- No two rows have the index. -/
def IndexOnce (text : Text) (index : Int) : Prop :=
  (text.splitOn '\n').countP (fun line => rowPort line = some index) ≤ 1

/-- The lines as `fgets` stores them: the last has no newline, and nothing is read of it
when it is empty. -/
def storedLines : List Text → List Text
  | [] => []
  | [line] => if line = [] then [] else [line]
  | line :: next :: lines => (line ++ ['\n']) :: storedLines (next :: lines)

theorem strings_intercalate {lines : List Text} (h : ∀ l ∈ lines, IsLine 256 l) :
    strings 256 (['\n'].intercalate lines) = storedLines lines := by
  induction lines with
  | nil => rfl
  | cons line lines ih =>
    obtain ⟨hline,hlines⟩ := List.forall_mem_cons.mp h
    have hkept : ∀ {t : Text}, (∀ c ∈ t, c ≠ nul) → untilNul t = t := fun ht =>
      List.takeWhile_eq_self_iff.mpr fun c hc => by simpa using ht c hc
    cases lines with
    | nil =>
      rw [List.intercalate_singleton,storedLines,strings,reads_eq (by decide),fgets]
      split
      · rfl
      · have hfits := hline.fits
        rw [takeLine_all (fun c hc => (hline.plain c hc).1) (by omega)]
        simp [reads,readsFrom,hkept fun c hc => (hline.plain c hc).2]
    | cons next lines =>
      have hsplit : ['\n'].intercalate (line :: next :: lines) =
          line ++ '\n' :: ['\n'].intercalate (next :: lines) := by
        simp [List.intercalate_cons_cons]
      have hdata : untilNul (line ++ ['\n']) = line ++ ['\n'] := by
        refine hkept fun c hc => ?_
        rcases List.mem_append.mp hc with hc | hc
        · exact (hline.plain c hc).2
        · rw [List.mem_singleton.mp hc]
          decide
      rw [hsplit,strings,reads_line hline,List.map_cons,hdata,storedLines]
      exact congrArg _ (ih hlines)

theorem strings_eq {text : Text} (h : ∀ l ∈ text.splitOn '\n', PlainLine l) :
    strings 256 text = storedLines (text.splitOn '\n') := by
  rw [← strings_intercalate fun l hl => (h l hl).isLine,List.intercalate_splitOn]

section Plain
variable {line : Text} {lines before after : List Text}

theorem PlainLine.wordAt_line (h : PlainLine line) {k : Nat} (hk : k < 3) :
    wordAt k line = (tokens isSpace line)[k]? :=
  wordAt_eq k fun w hw => h.short w (List.take_subset_take_left _ hk hw)

theorem PlainLine.wordAt_newline (h : PlainLine line) {k : Nat} (hk : k < 3) :
    wordAt k (line ++ ['\n']) = (tokens isSpace line)[k]? := by
  have htokens : tokens isSpace (line ++ ['\n']) = tokens isSpace line :=
    tokens_concat_sep (by decide) line
  rw [← htokens]
  exact wordAt_eq k fun w hw => h.short w (List.take_subset_take_left _ hk (htokens ▸ hw))

theorem MapArrays.ext_fields {s s' : MapArrays} (hport : s.logicalPort = s'.logicalPort)
    (hname : s.logicalName = s'.logicalName) (htype : s.typeInterface = s'.typeInterface) :
    s = s' := by
  cases s
  cases s'
  simp_all

theorem PlainLine.sscanfRow_newline (h : PlainLine line) (s : MapArrays) :
    sscanfRow s (line ++ ['\n']) = sscanfRow s line := by
  have hword : ∀ k < 3, wordAt k (line ++ ['\n']) = wordAt k line := fun k hk =>
    (h.wordAt_newline hk).trans (h.wordAt_line hk).symm
  apply MapArrays.ext_fields
  · rw [logicalPort_sscanfRow,logicalPort_sscanfRow,hword 0 (by decide)]
  · rw [logicalName_sscanfRow,logicalName_sscanfRow,hword 1 (by decide)]
  · rw [typeInterface_sscanfRow,typeInterface_sscanfRow,hword 2 (by decide)]

theorem PlainLine.sscanfRow_storedLine (h : PlainLine line) (after : List Text)
    (s : MapArrays) : sscanfRow s (storedLine line after) = sscanfRow s line := by
  unfold storedLine
  split
  · rfl
  · exact h.sscanfRow_newline s

theorem held_concat (h : PlainLine line) {k : Nat} (hk : k < 3) (lines : List Text) :
    held k (lines ++ [line]) = ((tokens isSpace line)[k]?).getD (held k lines) := by
  rw [held,latest_concat,h.wordAt_line hk,held]
  cases (tokens isSpace line)[k]? <;> rfl

theorem held_two (h : ∀ l ∈ lines, PlainLine l) : held 2 lines = typeColumn lines := by
  rw [held,typeColumn,latest_congr fun l hl => (h l hl).wordAt_line (by decide)]

theorem heldPort_concat (h : PlainLine line) (lines : List Text) :
    heldPort st (lines ++ [line]) =
      if tokens isSpace line = [] then heldPort st lines else rowPort line := by
  have hport := h.port
  rw [heldPort,held_concat h (by decide),heldPort]
  unfold rowPort at hport ⊢
  cases htokens : tokens isSpace line with
  | nil => rfl
  | cons w words =>
    rw [htokens] at hport
    rw [if_neg (List.cons_ne_nil w words)]
    simp only [List.head?_cons,Option.bind_some,List.getElem?_cons_zero,Option.getD_some] at hport ⊢
    cases hp : strstr ['='] w with
    | none => rfl
    | some p =>
      obtain ⟨hlow,hhigh⟩ := hport (atoi (p.drop 1)) (by rw [hp]; rfl)
      rw [Option.map_some,Option.map_some,st.exact _ hlow hhigh]

theorem tokens_of_rowPort {n : Int} (h : rowPort line = some n) : tokens isSpace line ≠ [] := by
  intro hnone
  rw [rowPort,hnone] at h
  exact absurd h (by simp)

theorem heldPort_row (h : PlainLine line) {n : Int} (hport : rowPort line = some n)
    (lines : List Text) : heldPort st (lines ++ [line]) = some n := by
  rw [heldPort_concat h,if_neg (tokens_of_rowPort hport),hport]

theorem baseText_blank (h : tokens isSpace line = []) (after : List Text) :
    baseText (storedLine line after) = none := by
  have hspace : ∀ c ∈ storedLine line after, isSpace c = true := by
    have hline := List.dropWhile_eq_nil_iff.mp (dropWhile_eq_nil_of_tokens h)
    unfold storedLine
    split
    · exact hline
    · intro c hc
      rcases List.mem_append.mp hc with hc | hc
      · exact hline c hc
      · rw [List.mem_singleton.mp hc]
        decide
  rw [baseText,Option.map_eq_none_iff,← Option.not_isSome_iff_eq_none,strstr_isSome_iff]
  intro hin
  exact absurd (hspace 'B' (hin.subset (by decide))) (by decide)

/-- Behind these lines the index is not held, unless with a type that says PHY. -/
def Idle (st : IntStore) (index : Int) (lines : List Text) : Prop :=
  heldPort st lines = some index → phy <:+: held 2 lines

theorem idle_nil : Idle st index [] := by
  intro h
  simp [heldPort,held,strstr] at h

theorem Idle.concat (h : Idle st index lines) (ifnameLength : Nat) (hline : PlainLine line)
    (hport : rowPort line ≠ some index) (after : List Text) :
    Idle st index (lines ++ [line]) ∧
      returnedAt st index ifnameLength (lines ++ [line]) (storedLine line after) = none := by
  by_cases hblank : tokens isSpace line = []
  · have hsame : heldPort st (lines ++ [line]) = heldPort st lines := by
      rw [heldPort_concat hline,if_pos hblank]
    have htype : held 2 (lines ++ [line]) = held 2 lines := by
      rw [held_concat hline (by decide),hblank]
      rfl
    unfold Idle returnedAt
    rw [hsame,htype]
    refine ⟨h,?_⟩
    split
    · next hindex => rw [if_pos (h hindex),baseText_blank hblank,Option.map_none]
    · rfl
  · have hother : heldPort st (lines ++ [line]) ≠ some index := by
      rw [heldPort_concat hline,if_neg hblank]
      exact hport
    exact ⟨fun hindex => absurd hindex hother,if_neg hother⟩

theorem storedLines_cons {line : Text} (hline : after = [] → line ≠ []) :
    storedLines (line :: after) = storedLine line after :: storedLines after := by
  cases after with
  | nil => simp [storedLines,storedLine,hline rfl]
  | cons next after => rfl

theorem mappingLoop_idle (h : Idle st index before) (hlines : ∀ l ∈ lines, PlainLine l)
    (hother : ∀ l ∈ lines, rowPort l ≠ some index) :
    mappingLoop st index ifnameLength (arraysAfter before) (storedLines lines) = .failure := by
  induction lines generalizing before with
  | nil => rfl
  | cons line lines ih =>
    obtain ⟨hline,hlines⟩ := List.forall_mem_cons.mp hlines
    obtain ⟨hport,hother⟩ := List.forall_mem_cons.mp hother
    by_cases hend : lines = [] ∧ line = []
    · obtain ⟨rfl,rfl⟩ := hend
      rfl
    · obtain ⟨hidle,hnone⟩ := h.concat ifnameLength hline hport lines
      rw [storedLines_cons fun he hline => hend ⟨he,hline⟩,
        mappingLoop_cons (hline.sscanfRow_storedLine lines),hnone,Option.getD_none,
        ih hidle hlines hother]

theorem mappingLoop_first (h : Idle st index before) {first : List Text}
    (hfirst : ∀ l ∈ first, PlainLine l) (hother : ∀ l ∈ first, rowPort l ≠ some index)
    (hline : PlainLine line) (hport : rowPort line = some index) (after : List Text) :
    mappingLoop st index ifnameLength (arraysAfter before)
        (storedLines (first ++ line :: after)) =
      (returnedAt st index ifnameLength (before ++ first ++ [line]) (storedLine line after)).getD
        (mappingLoop st index ifnameLength (arraysAfter (before ++ first ++ [line]))
          (storedLines after)) := by
  induction first generalizing before with
  | nil =>
    have hne : line ≠ [] := fun he => tokens_of_rowPort hport (by rw [he]; rfl)
    rw [List.nil_append,List.append_nil,storedLines_cons fun _ => hne,
      mappingLoop_cons (hline.sscanfRow_storedLine after)]
  | cons l first ih =>
    obtain ⟨hl,hfirst⟩ := List.forall_mem_cons.mp hfirst
    obtain ⟨hlport,hother⟩ := List.forall_mem_cons.mp hother
    obtain ⟨hidle,hnone⟩ := h.concat ifnameLength hl hlport
      (first ++ line :: after)
    rw [List.cons_append,storedLines_cons fun he => absurd he (by simp),
      mappingLoop_cons (hl.sscanfRow_storedLine _),hnone,Option.getD_none,ih hidle hfirst hother]
    simp

theorem copyName_eq_iff {ifnameLength : Nat} {src : Text} {name : Option Text} :
    copyName ifnameLength src = name.elim .failure .success ↔
      name = some src ∧ src.length < ifnameLength := by
  unfold copyName
  split
  · next hfits => cases name <;> simp [hfits,eq_comm]
  · next hfits => cases name <;> simp [hfits]

theorem copyTrimmed_eq_iff {ifnameLength : Nat} {src : Text} {name : Option Text} :
    copyTrimmed ifnameLength src = name.elim .failure .success ↔
      ∃ n last, src = n ++ [last] ∧ n.length+1 < ifnameLength ∧ name = some n := by
  rcases List.eq_nil_or_concat' src with rfl | ⟨n,last,rfl⟩
  · cases name <;> simp [copyTrimmed]
  · unfold copyTrimmed
    split
    · next hfits =>
      have hfits : n.length+1 < ifnameLength := by simpa using hfits
      cases name <;> simp [hfits,eq_comm]
    · next hfits =>
      have hfits : ¬n.length+1 < ifnameLength := by simpa using hfits
      cases name <;> simp [hfits]

theorem heldName_line (h : PlainLine line) (before : List Text) {word name : Text}
    (hword : (tokens isSpace line)[1]? = some word)
    (hname : valueOf logicalNameKey word = some name) :
    heldName (before ++ [line]) = name := by
  have hscan := h.wordAt_line (k := 1) (by decide)
  rw [hword] at hscan
  unfold valueOf at hname
  split at hname
  · next hkey =>
    obtain rfl := Option.some_inj.mp hname
    have hlength : logicalNameKey.length ≤ word.length := hkey.length_le
    have hnul : ∀ c ∈ word.drop logicalNameKey.length, decide (c ≠ nul) = true := by
      intro c hc
      have hmem : c ∈ line :=
        (infix_of_mem (List.mem_of_getElem? hword)).subset (List.mem_of_mem_drop hc)
      simpa using (h.isLine.plain c hmem).2
    rw [heldName,List.filterMap_append,List.filterMap_cons_some hscan,List.filterMap_nil,
      List.foldl_append,List.foldl_cons,List.foldl_nil,overwrite,
      List.drop_append_of_le_length hlength,untilNul,List.takeWhile_append_of_pos hnul,
      List.takeWhile_cons_of_neg (by simp),List.append_nil]
  · exact absurd hname (by simp)

/-- A name that is not of a PHY row is that of the second column, which is held. -/
theorem heldName_of_rowName (h : PlainLine line) {before : List Text}
    (hphy : ¬phy <:+: held 2 (before ++ [line])) {name : Text} (hname : rowName line = some name) :
    heldName (before ++ [line]) = name := by
  have hown : ¬phy <:+: ((tokens isSpace line)[2]?).getD [] := by
    rw [held_concat h (by decide)] at hphy
    cases htype : (tokens isSpace line)[2]? with
    | none => decide
    | some type => rwa [htype] at hphy
  rw [rowName,if_neg hown] at hname
  obtain ⟨word,hword,hvalue⟩ := Option.bind_eq_some_iff.mp hname
  exact heldName_line h before hword hvalue

variable {text : Text}

theorem getEthPhyInterfaceName_eq (hplain : ∀ l ∈ text.splitOn '\n', PlainLine l) :
    getEthPhyInterfaceName st (some text) index ifnameLength =
      mappingLoop st index ifnameLength (arraysAfter []) (storedLines (text.splitOn '\n')) := by
  rw [getEthPhyInterfaceName,strings_eq hplain]
  rfl

theorem mappedResult_first (hlines : text.splitOn '\n' = before ++ line :: after)
    (hport : rowPort line = some index) (hother : ∀ l ∈ before, rowPort l ≠ some index) :
    mappedResult text index = (rowName line).elim .failure .success := by
  have hnone : before.find? (fun l => rowPort l = some index) = none :=
    List.find?_eq_none.mpr fun l hl => by simpa using hother l hl
  rw [mappedResult,mappedName,hlines,List.find?_append,hnone,Option.none_or,
    List.find?_cons_of_pos (by simpa using hport),Option.bind_some]

theorem mapped_first_iff (hlines : text.splitOn '\n' = before ++ line :: after)
    (hplain : ∀ l ∈ text.splitOn '\n', PlainLine l) (hport : rowPort line = some index)
    (hother : ∀ l ∈ before, rowPort l ≠ some index) :
    (RowReadRight index ifnameLength before line after →
      getEthPhyInterfaceName st (some text) index ifnameLength = mappedResult text index) ∧
    ((∀ l ∈ after, rowPort l ≠ some index) →
      getEthPhyInterfaceName st (some text) index ifnameLength = mappedResult text index →
        RowReadRight index ifnameLength before line after) := by
  rw [getEthPhyInterfaceName_eq hplain,mappedResult_first hlines hport hother]
  rw [hlines] at hplain ⊢
  have hbefore : ∀ l ∈ before, PlainLine l := fun l hl => hplain l (by simp [hl])
  have hline : PlainLine line := hplain line (by simp)
  have hafter : ∀ l ∈ after, PlainLine l := fun l hl => hplain l (by simp [hl])
  have htype : held 2 (before ++ [line]) = typeColumn (before ++ [line]) :=
    held_two fun l hl => by
      rcases List.mem_append.mp hl with hl | hl
      · exact hbefore l hl
      · exact List.mem_singleton.mp hl ▸ hline
  rw [mappingLoop_first idle_nil hbefore hother hline hport,List.nil_append,returnedAt,
    if_pos (heldPort_row hline hport before),RowReadRight,← htype]
  by_cases hphy : phy <:+: held 2 (before ++ [line])
  · have hidle : Idle st index (before ++ [line]) := fun _ => hphy
    have hend : (∀ l ∈ after, rowPort l ≠ some index) →
        mappingLoop st index ifnameLength (arraysAfter (before ++ [line])) (storedLines after) =
          .failure := fun hno => mappingLoop_idle hidle hafter hno
    rw [if_pos hphy,if_pos hphy]
    cases baseText (storedLine line after) with
    | some value =>
      dsimp only [Option.map_some,Option.getD_some]
      rw [copyTrimmed_eq_iff]
      constructor
      · rintro ⟨name,last,hvalue,hname,hfits⟩
        exact ⟨name,last,hvalue,hfits,hname⟩
      · rintro - ⟨name,last,hvalue,hfits,hname⟩
        exact ⟨name,last,hvalue,hname,hfits⟩
    | none =>
      dsimp only [Option.map_none,Option.getD_none]
      constructor
      · rintro ⟨hname,hno⟩
        rw [hend hno,hname]
        rfl
      · intro hno h
        rw [hend hno] at h
        cases hname : rowName line with
        | none => exact ⟨rfl,hno⟩
        | some name => rw [hname] at h; exact absurd h (by simp)
  · rw [if_neg hphy,if_neg hphy,Option.getD_some,copyName_eq_iff]
    constructor
    · rintro ⟨name,hname,hfits⟩
      rw [heldName_of_rowName hline hphy hname]
      exact ⟨hname,hfits⟩
    · rintro - ⟨hname,hfits⟩
      exact ⟨_,hname,hfits⟩

theorem mapped_of_no_row (hplain : ∀ l ∈ text.splitOn '\n', PlainLine l)
    (hother : ∀ l ∈ text.splitOn '\n', rowPort l ≠ some index) :
    getEthPhyInterfaceName st (some text) index ifnameLength = mappedResult text index := by
  have hnone : (text.splitOn '\n').find? (fun l => rowPort l = some index) = none :=
    List.find?_eq_none.mpr fun l hl => by simpa using hother l hl
  rw [getEthPhyInterfaceName_eq hplain,mappingLoop_idle idle_nil hplain hother,mappedResult,
    mappedName,hnone,Option.bind_none,Option.elim_none]

theorem exists_first_row (lines : List Text) (index : Int) :
    (∀ l ∈ lines, rowPort l ≠ some index) ∨
      ∃ before line after, lines = before ++ line :: after ∧ rowPort line = some index ∧
        ∀ l ∈ before, rowPort l ≠ some index := by
  cases hfind : lines.find? fun l => rowPort l = some index with
  | none => exact .inl fun l hl => by simpa using List.find?_eq_none.mp hfind l hl
  | some line =>
    obtain ⟨hport,before,after,rfl,hother⟩ := List.find?_eq_some_iff_append.mp hfind
    exact .inr ⟨before,line,after,rfl,by simpa using hport,fun l hl => by simpa using hother l hl⟩

theorem mapped_of_firstRowReadRight (st : IntStore)
    (hplain : ∀ l ∈ text.splitOn '\n', PlainLine l)
    (h : FirstRowReadRight text index ifnameLength) :
    getEthPhyInterfaceName st (some text) index ifnameLength = mappedResult text index := by
  rcases exists_first_row (text.splitOn '\n') index with hno | ⟨before,line,after,hlines,hfirst⟩
  · exact mapped_of_no_row hplain hno
  · obtain ⟨hport,hother⟩ := hfirst
    exact (mapped_first_iff hlines hplain hport hother).1 (h before line after hlines hport hother)

theorem rows_after_indexOnce (h : IndexOnce text index)
    (hlines : text.splitOn '\n' = before ++ line :: after) (hport : rowPort line = some index) :
    ∀ l ∈ after, rowPort l ≠ some index := by
  have hzero : after.countP (fun l => rowPort l = some index) = 0 := by
    rw [IndexOnce,hlines,List.countP_append,List.countP_cons_of_pos (by simpa using hport)] at h
    omega
  exact fun l hl => by simpa using List.countP_eq_zero.mp hzero l hl

/-- A complete row, whose name fits and stands at the end of the line with a PHY type. -/
structure SoundRow (ifnameLength : Nat) (line : Text) : Prop extends PlainLine line where
  complete : 3 ≤ (tokens isSpace line).length
  named : ∃ name, rowName line = some name ∧ name.length+1 < ifnameLength ∧
    (phy <:+: ((tokens isSpace line)[2]?).getD [] →
      baseText (line ++ ['\n']) = some (name ++ ['\n']))

theorem SoundRow.readRight (h : SoundRow ifnameLength line) (index : Int) (before : List Text)
    (hafter : after ≠ []) : RowReadRight index ifnameLength before line after := by
  obtain ⟨name,hname,hfits,hbase⟩ := h.named
  obtain ⟨type,hcolumn⟩ : ∃ type, (tokens isSpace line)[2]? = some type :=
    ⟨_,List.getElem?_eq_getElem (Nat.lt_of_succ_le h.complete)⟩
  have htype : typeColumn (before ++ [line]) = ((tokens isSpace line)[2]?).getD [] := by
    rw [typeColumn,latest_concat,hcolumn]
    rfl
  rw [RowReadRight,htype,storedLine,if_neg hafter]
  split
  · next hphy =>
    rw [hbase hphy]
    exact ⟨name,'\n',rfl,hname,hfits⟩
  · exact ⟨name,hname,by omega⟩

theorem plainLine_nil : PlainLine [] :=
  ⟨⟨by simp,by decide⟩,by simp [tokens,tokensFrom,flush],by simp [rowPort,tokens,tokensFrom,flush]⟩

/-- A file of complete rows maps every index as it says. -/
theorem mapped_name_of_rows (st : IntStore) (index : Int)
    (h : ∀ l ∈ lines, SoundRow ifnameLength l) :
    getEthPhyInterfaceName st (some (terminated '\n' lines)) index ifnameLength =
      mappedResult (terminated '\n' lines) index := by
  have hlines : (terminated '\n' lines).splitOn '\n' = lines ++ [[]] :=
    splitOn_lines fun l hl => (h l hl).isLine
  apply mapped_of_firstRowReadRight
  · intro l hl
    rcases List.mem_append.mp (hlines ▸ hl) with hl | hl
    · exact (h l hl).toPlainLine
    · exact List.mem_singleton.mp hl ▸ plainLine_nil
  · intro before line after hsplit hport _
    have hne : line ≠ [] := fun he => tokens_of_rowPort hport (by rw [he]; rfl)
    rw [hlines] at hsplit
    obtain ⟨rest,hrest⟩ : ∃ rest, line :: after = rest ++ [[]] ∧ ∃ b, lines = b ++ rest := by
      rcases List.append_eq_append_iff.mp hsplit with ⟨t,-,ht⟩ | ⟨t,hl,ht⟩
      · cases t with
        | nil => exact absurd (List.cons.inj ht).1.symm hne
        | cons x t => simp at ht
      · exact ⟨t,ht,before,hl⟩
    obtain ⟨hcons,b,hb⟩ := hrest
    cases rest with
    | nil => exact absurd (List.cons.inj hcons).1 hne
    | cons x rest =>
      obtain ⟨rfl,rfl⟩ := List.cons.inj hcons
      exact (h line (by simp [hb])).readRight index before (by simp)

end Plain

def mappingText : Text :=
  ("LogicalPort=1 LogicalName=sw_1 Type=PHY BaseInterface=nsgmii1\n" ++
    "LogicalPort=2 LogicalName=sw_2 Type=PHY BaseInterface=nsgmii2").toList

def firstRow : Text := "LogicalPort=1 LogicalName=sw_1 Type=PHY BaseInterface=nsgmii1".toList
def secondRow : Text := "LogicalPort=2 LogicalName=sw_2 Type=PHY BaseInterface=nsgmii2".toList

theorem splitOn_mappingText : mappingText.splitOn '\n' = [firstRow,secondRow] := by decide +kernel

theorem plain_mappingText : ∀ l ∈ mappingText.splitOn '\n', PlainLine l := by
  have hfirst : rowPort firstRow = some 1 := by decide +kernel
  have hsecond : rowPort secondRow = some 2 := by decide +kernel
  rw [splitOn_mappingText]
  refine List.forall_mem_cons.mpr ⟨?_,List.forall_mem_cons.mpr ⟨?_,by simp⟩⟩
  · exact ⟨isLine_of_not_mem (by decide +kernel) (by decide +kernel) (by decide +kernel),
      by decide +kernel,by simp [hfirst]⟩
  · exact ⟨isLine_of_not_mem (by decide +kernel) (by decide +kernel) (by decide +kernel),
      by decide +kernel,by simp [hsecond]⟩

end EthAgent
