import EthAgent.Lib.Fgets
import EthAgent.Lib.Tokens

/-!
The counters of a port, which `getIfStats2` reads from /proc/net/dev: the lines after
the head line are searched for the name, and the counters found by position.
-/

set_option autoImplicit false

namespace EthAgent
open CString Fgets Tokens

/-- `COSA_DML_ETH_STATS`. -/
structure DmlEthStats where
  bytesSent : Nat
  bytesReceived : Nat
  packetsSent : Nat
  packetsReceived : Nat
  errorsSent : Nat
  errorsReceived : Nat
  unicastPacketsSent : Nat
  unicastPacketsReceived : Nat
  discardPacketsSent : Nat
  discardPacketsReceived : Nat
  multicastPacketsSent : Nat
  multicastPacketsReceived : Nat
  broadcastPacketsSent : Nat
  broadcastPacketsReceived : Nat
  unknownProtoPacketsReceived : Nat
  deriving DecidableEq

/-- After the `_ansc_memset` of `CosaDmlEthPortGetStats`. -/
def zeroStats : DmlEthStats where
  bytesSent := 0
  bytesReceived := 0
  packetsSent := 0
  packetsReceived := 0
  errorsSent := 0
  errorsReceived := 0
  unicastPacketsSent := 0
  unicastPacketsReceived := 0
  discardPacketsSent := 0
  discardPacketsReceived := 0
  multicastPacketsSent := 0
  multicastPacketsReceived := 0
  broadcastPacketsSent := 0
  broadcastPacketsReceived := 0
  unknownProtoPacketsReceived := 0

/-- What a conversion to a signed type of `bits` bits stores: up to the C library where
the type cannot hold the number. -/
structure LongStore (bits : Nat) where
  store : Int → Int
  exact : ∀ n, -2^(bits-1) ≤ n → n < 2^(bits-1) → store n = n

structure CLongs where
  longBits : Nat
  long : LongStore longBits
  longLong : LongStore 64

def unsigned (bits : Nat) (n : Int) : Nat := (n%2^bits).toNat

def CLongs.atol (c : CLongs) (tok : Text) : Nat :=
  unsigned c.longBits (c.long.store (atoi tok))

def CLongs.atoll (c : CLongs) (tok : Text) : Nat := unsigned 64 (c.longLong.store (atoi tok))

def isDelim (c : Char) : Bool := c ∈ [':',' ','\t','\r','\n']

def storeToken (c : CLongs) (idx : Nat) (tok : Text) (pStats : DmlEthStats) : DmlEthStats :=
  match idx with
  | 2 => { pStats with bytesReceived := c.atoll tok }
  | 3 => { pStats with packetsReceived := c.atol tok }
  | 4 => { pStats with errorsReceived := c.atol tok }
  | 5 => { pStats with discardPacketsReceived := c.atol tok }
  | 10 => { pStats with bytesSent := c.atoll tok }
  | 11 => { pStats with packetsSent := c.atol tok }
  | 12 => { pStats with errorsSent := c.atol tok }
  | 13 => { pStats with discardPacketsSent := c.atol tok }
  | _ => pStats

def storeTokens (c : CLongs) : Nat → List Text → DmlEthStats → DmlEthStats
  | _, [], pStats => pStats
  | idx, tok :: toks, pStats => storeTokens c (idx+1) toks (storeToken c idx tok pStats)

def readRow (c : CLongs) (pName : Text) (pStats : DmlEthStats) (buf : Text) : DmlEthStats :=
  if pName <:+: buf then storeTokens c 1 (tokens isDelim buf) pStats else pStats

/-- The file, where it opens, and the status that is returned. -/
def getIfStats2 (c : CLongs) (file : Option Text) (pName : Text) (pStats : DmlEthStats) :
    Int × DmlEthStats :=
  match file with
  | none => (-1,pStats)
  | some text =>
    match strings 512 text with
    | [] => (-1,pStats)
    | _ :: bufs => (0,bufs.foldl (readRow c pName) pStats)

structure NetRow where
  name : Text
  columns : List Text
  deriving DecidableEq

/-- The name stands before the colon, with blanks in front of it. -/
def netRow (line : Text) : Option NetRow :=
  if ':' ∈ line then
    some ⟨(line.takeWhile (· ≠ ':')).dropWhile isSpace,
      tokens isSpace ((line.dropWhile (· ≠ ':')).drop 1)⟩
  else none

def netRows (text : Text) : List NetRow := (text.splitOn '\n').tail.filterMap netRow

/-- A column that the row does not have counts nothing. -/
def NetRow.counter (r : NetRow) (i : Nat) : Nat := (r.columns[i]?).elim 0 digitsValue

def NetRow.stats (r : NetRow) : DmlEthStats :=
  { zeroStats with
    bytesReceived := r.counter 0
    packetsReceived := r.counter 1
    errorsReceived := r.counter 2
    discardPacketsReceived := r.counter 3
    bytesSent := r.counter 8
    packetsSent := r.counter 9
    errorsSent := r.counter 10
    discardPacketsSent := r.counter 11 }

/-- The counters of the row named so, all zero where there is none. -/
def CountersOf (text name : Text) (s : DmlEthStats) : Prop :=
  (∃ r ∈ netRows text, r.name = name ∧ s = r.stats) ∨
    (∀ r ∈ netRows text, r.name ≠ name) ∧ s = zeroStats

instance (text name : Text) (s : DmlEthStats) : Decidable (CountersOf text name s) :=
  inferInstanceAs (Decidable ((∃ r ∈ netRows text, r.name = name ∧ s = r.stats) ∨
    (∀ r ∈ netRows text, r.name ≠ name) ∧ s = zeroStats))

inductive StatsColumn where
  | bytesReceived | packetsReceived | errorsReceived | discardPacketsReceived
  | bytesSent | packetsSent | errorsSent | discardPacketsSent

/-- The position of the column among the tokens of a line, from 1 on. -/
def StatsColumn.idx : StatsColumn → Nat
  | .bytesReceived => 2
  | .packetsReceived => 3
  | .errorsReceived => 4
  | .discardPacketsReceived => 5
  | .bytesSent => 10
  | .packetsSent => 11
  | .errorsSent => 12
  | .discardPacketsSent => 13

def StatsColumn.get : StatsColumn → DmlEthStats → Nat
  | .bytesReceived, s => s.bytesReceived
  | .packetsReceived, s => s.packetsReceived
  | .errorsReceived, s => s.errorsReceived
  | .discardPacketsReceived, s => s.discardPacketsReceived
  | .bytesSent, s => s.bytesSent
  | .packetsSent, s => s.packetsSent
  | .errorsSent, s => s.errorsSent
  | .discardPacketsSent, s => s.discardPacketsSent

def StatsColumn.convert (c : CLongs) : StatsColumn → Text → Nat
  | .bytesReceived, tok => c.atoll tok
  | .bytesSent, tok => c.atoll tok
  | _, tok => c.atol tok

def StatsColumn.shows (c : CLongs) (col : StatsColumn) (name buf : Text) : Option Nat :=
  if name <:+: buf then ((tokens isDelim buf)[col.idx-1]?).map (col.convert c) else none

/-- The counters that `getIfStats2` does not read. -/
def DmlEthStats.unread (s : DmlEthStats) : List Nat :=
  [s.unicastPacketsSent,s.unicastPacketsReceived,s.multicastPacketsSent,
    s.multicastPacketsReceived,s.broadcastPacketsSent,s.broadcastPacketsReceived,
    s.unknownProtoPacketsReceived]

theorem DmlEthStats.ext_columns {s s' : DmlEthStats} (hunread : s.unread = s'.unread)
    (h : ∀ col : StatsColumn, col.get s = col.get s') : s = s' := by
  have h2 := h .bytesReceived
  have h3 := h .packetsReceived
  have h4 := h .errorsReceived
  have h5 := h .discardPacketsReceived
  have h10 := h .bytesSent
  have h11 := h .packetsSent
  have h12 := h .errorsSent
  have h13 := h .discardPacketsSent
  cases s
  cases s'
  simp_all [unread,StatsColumn.get]

variable {c : CLongs}

theorem unread_storeToken (idx : Nat) (tok : Text) (s : DmlEthStats) :
    (storeToken c idx tok s).unread = s.unread := by
  unfold storeToken
  split <;> rfl

theorem unread_storeTokens (idx : Nat) (toks : List Text) (s : DmlEthStats) :
    (storeTokens c idx toks s).unread = s.unread := by
  induction toks generalizing idx s with
  | nil => rfl
  | cons tok toks ih => rw [storeTokens,ih,unread_storeToken]

theorem unread_readRow (name : Text) (s : DmlEthStats) (buf : Text) :
    (readRow c name s buf).unread = s.unread := by
  unfold readRow
  split
  · exact unread_storeTokens _ _ _
  · rfl

theorem get_storeToken (col : StatsColumn) (idx : Nat) (tok : Text) (s : DmlEthStats) :
    col.get (storeToken c idx tok s) = if idx = col.idx then col.convert c tok else col.get s := by
  unfold storeToken
  split <;> cases col <;> simp_all [StatsColumn.idx,StatsColumn.get,StatsColumn.convert]

theorem get_storeTokens_of_lt (col : StatsColumn) {idx : Nat} (toks : List Text)
    (s : DmlEthStats) (hidx : col.idx < idx) :
    col.get (storeTokens c idx toks s) = col.get s := by
  induction toks generalizing idx s with
  | nil => rfl
  | cons tok toks ih =>
    have hne : idx ≠ col.idx := by omega
    rw [storeTokens,ih _ (by omega),get_storeToken,if_neg hne]

theorem get_storeTokens (col : StatsColumn) {idx : Nat} (toks : List Text) (s : DmlEthStats)
    (hidx : idx ≤ col.idx) :
    col.get (storeTokens c idx toks s) =
      ((toks[col.idx-idx]?).map (col.convert c)).getD (col.get s) := by
  induction toks generalizing idx s with
  | nil => rfl
  | cons tok toks ih =>
    rw [storeTokens]
    by_cases heq : idx = col.idx
    · rw [get_storeTokens_of_lt col toks _ (by omega),get_storeToken,if_pos heq,heq,Nat.sub_self]
      rfl
    · rw [ih _ (by omega),get_storeToken,if_neg heq,
        show col.idx-idx = col.idx-(idx+1)+1 by omega,List.getElem?_cons_succ]

theorem get_readRow (col : StatsColumn) (name : Text) (s : DmlEthStats) (buf : Text) :
    col.get (readRow c name s buf) = (col.shows c name buf).getD (col.get s) := by
  unfold readRow StatsColumn.shows
  split
  · exact get_storeTokens col _ s (by cases col <;> decide)
  · rfl

theorem unread_readRows (name : Text) (bufs : List Text) (s : DmlEthStats) :
    (bufs.foldl (readRow c name) s).unread = s.unread := by
  induction bufs generalizing s with
  | nil => rfl
  | cons buf bufs ih => rw [List.foldl_cons,ih,unread_readRow]

theorem getIfStats2_eq (text name : Text) (s : DmlEthStats) :
    (getIfStats2 c (some text) name s).2 = (strings 512 text).tail.foldl (readRow c name) s := by
  rw [getIfStats2]
  cases strings 512 text <;> rfl

theorem CountersOf.unread {text name : Text} {s : DmlEthStats} (h : CountersOf text name s) :
    s.unread = zeroStats.unread := by
  rcases h with ⟨r,-,-,rfl⟩ | ⟨-,rfl⟩ <;> rfl

def saturating (bits : Nat) : LongStore bits where
  store n := max (-2^(bits-1)) (min n (2^(bits-1)-1))
  exact n hlow hhigh := by
    rw [min_eq_left (by omega),max_eq_right hlow]

/-- A `long` of 64 bits, and conversions that stop at the limits. -/
def lp64 : CLongs := ⟨64,saturating 64,saturating 64⟩

/-- A row as it is written: the columns are numbers, each with a blank in front. -/
structure NetLine where
  blanks : Nat
  name : Text
  columns : List Text

def NetLine.text (r : NetLine) : Text :=
  List.replicate r.blanks ' ' ++ (r.name ++ ':' :: led ' ' r.columns)

structure NetLine.Sound (c : CLongs) (r : NetLine) : Prop where
  nonempty : r.name ≠ []
  plain : ∀ x ∈ r.name, isSpace x = false ∧ x ≠ ':' ∧ x ≠ nul
  digits : ∀ t ∈ r.columns, t ≠ [] ∧ ∀ x ∈ t, x.isDigit = true
  held : ∀ t ∈ r.columns, digitsValue t < 2^(c.longBits-1) ∧ digitsValue t < 2^63
  fits : r.text.length+1 < 512

theorem isDelim_of_isSpace {x : Char} (hspace : isSpace x = false) (hcolon : x ≠ ':') :
    isDelim x = false := by
  simp only [isSpace,isDelim,decide_eq_false_iff_not,List.mem_cons,List.not_mem_nil,or_false,
    not_or] at hspace ⊢
  exact ⟨hcolon,hspace.1,hspace.2.1,hspace.2.2.2.2.2,hspace.2.2.1⟩

theorem isDigit_ne {x d : Char} (hx : x.isDigit = true) (hd : d.isDigit = false) : x ≠ d :=
  fun h => absurd (h ▸ hx) (by simp [hd])

theorem NetLine.Sound.isToken {r : NetLine} (h : r.Sound c) : IsToken isDelim r.name :=
  ⟨h.nonempty,fun x hx => isDelim_of_isSpace (h.plain x hx).1 (h.plain x hx).2.1⟩

theorem NetLine.Sound.isLine {r : NetLine} (h : r.Sound c) : IsLine 512 r.text := by
  refine ⟨fun x hx => ?_,h.fits⟩
  rcases List.mem_append.mp hx with hx | hx
  · rw [List.eq_of_mem_replicate hx]
    decide
  · rcases List.mem_append.mp hx with hx | hx
    · refine ⟨fun he => ?_,(h.plain x hx).2.2⟩
      exact absurd (h.plain x hx).1 (by rw [he]; decide)
    · rcases List.mem_cons.mp hx with rfl | hx
      · decide
      · obtain ⟨t,ht,hxt⟩ := List.mem_flatMap.mp hx
        rcases List.mem_cons.mp hxt with rfl | hxt
        · decide
        · have hdigit := (h.digits t ht).2 x hxt
          exact ⟨isDigit_ne hdigit (by decide),isDigit_ne hdigit (by decide)⟩

theorem NetLine.Sound.tokens_text {r : NetLine} (h : r.Sound c) :
    tokens isDelim r.text = r.name :: r.columns := by
  have hcolumns : ∀ t ∈ r.columns, IsToken isDelim t := fun t ht =>
    ⟨(h.digits t ht).1,fun x hx => isDelim_of_isSpace
      (isSpace_of_isDigit ((h.digits t ht).2 x hx)) (isDigit_ne ((h.digits t ht).2 x hx) rfl)⟩
  rw [NetLine.text,tokens_blanks (by decide),tokens_sep (by decide),tokens_of_token h.isToken,
    tokens_led (by decide) hcolumns]
  rfl

theorem NetLine.Sound.netRow_text {r : NetLine} (h : r.Sound c) :
    netRow r.text = some ⟨r.name,r.columns⟩ := by
  have hcolon : ∀ x ∈ List.replicate r.blanks ' ' ++ r.name, decide (x ≠ ':') = true := by
    intro x hx
    rcases List.mem_append.mp hx with hx | hx
    · rw [List.eq_of_mem_replicate hx]
      decide
    · simpa using (h.plain x hx).2.1
  have htext : r.text = (List.replicate r.blanks ' ' ++ r.name) ++ ':' :: led ' ' r.columns := by
    rw [NetLine.text,List.append_assoc]
  have htake : r.text.takeWhile (fun x => decide (x ≠ ':')) =
      List.replicate r.blanks ' ' ++ r.name := by
    rw [htext,List.takeWhile_append_of_pos hcolon,List.takeWhile_cons_of_neg (by simp),
      List.append_nil]
  have hdrop : r.text.dropWhile (fun x => decide (x ≠ ':')) = ':' :: led ' ' r.columns := by
    rw [htext,List.dropWhile_append_of_pos hcolon,List.dropWhile_cons_of_neg (by simp)]
  have hname : (List.replicate r.blanks ' ' ++ r.name).dropWhile isSpace = r.name := by
    obtain ⟨x,name,hname⟩ := List.exists_cons_of_ne_nil h.nonempty
    have hx := (h.plain x (hname ▸ List.mem_cons_self)).1
    rw [List.dropWhile_append_of_pos fun y hy => by rw [List.eq_of_mem_replicate hy]; rfl,hname,
      List.dropWhile_cons_of_neg (by simp [hx])]
  have hcolumns : ∀ t ∈ r.columns, IsToken isSpace t := fun t ht =>
    ⟨(h.digits t ht).1,fun x hx => isSpace_of_isDigit ((h.digits t ht).2 x hx)⟩
  have hmem : ':' ∈ r.text := by simp [htext]
  rw [netRow,if_pos hmem,htake,hdrop,hname,List.drop_succ_cons,List.drop_zero,
    tokens_led (by decide) hcolumns]

theorem unsigned_of_lt (bits : Nat) {n : Nat} (h : n < 2^(bits-1)) : unsigned bits n = n := by
  have hle : 2^(bits-1) ≤ 2^bits := Nat.pow_le_pow_right (by decide) (Nat.sub_le _ _)
  have hlt : n < 2^bits := by omega
  have hmod : (n : Int)%2^bits = n := Int.emod_eq_of_lt (by omega) (by exact_mod_cast hlt)
  rw [unsigned,hmod,Int.toNat_natCast]

theorem LongStore.store_natCast {bits : Nat} (l : LongStore bits) {n : Nat}
    (h : n < 2^(bits-1)) : l.store n = n := by
  have hpos : (0 : Int) < 2^(bits-1) := Int.pow_pos (by decide)
  exact l.exact n (by omega) (by exact_mod_cast h)

theorem StatsColumn.convert_digits (c : CLongs) (col : StatsColumn) {tok : Text} (hne : tok ≠ [])
    (hdigits : ∀ x ∈ tok, x.isDigit = true)
    (hheld : digitsValue tok < 2^(c.longBits-1) ∧ digitsValue tok < 2^63) :
    col.convert c tok = digitsValue tok := by
  have hatol : c.atol tok = digitsValue tok := by
    rw [CLongs.atol,atoi_digits hne hdigits,c.long.store_natCast hheld.1,unsigned_of_lt _ hheld.1]
  have hatoll : c.atoll tok = digitsValue tok := by
    rw [CLongs.atoll,atoi_digits hne hdigits,c.longLong.store_natCast hheld.2,
      unsigned_of_lt 64 hheld.2]
  cases col <;> first | exact hatol | exact hatoll

theorem get_stats (col : StatsColumn) (r : NetRow) : col.get r.stats = r.counter (col.idx-2) := by
  cases col <;> rfl

/-- As `fgets` stores the line. Only the last of a file may lack the newline. -/
def NetLine.Stored (r : NetLine) (buf : Text) : Prop := buf = r.text ++ ['\n'] ∨ buf = r.text

theorem NetLine.Sound.tokens_stored {r : NetLine} (h : r.Sound c) {buf : Text}
    (hbuf : r.Stored buf) : tokens isDelim buf = r.name :: r.columns := by
  rcases hbuf with rfl | rfl
  · rw [tokens_concat_sep (by decide),h.tokens_text]
  · exact h.tokens_text

theorem NetLine.Sound.shows {r : NetLine} (h : r.Sound c) {buf : Text} (hbuf : r.Stored buf)
    (col : StatsColumn) {name : Text} (hname : name <:+: buf) :
    col.shows c name buf = (r.columns[col.idx-2]?).map digitsValue := by
  have hidx : col.idx-1 = col.idx-2+1 := by cases col <;> rfl
  rw [StatsColumn.shows,if_pos hname,h.tokens_stored hbuf,hidx,List.getElem?_cons_succ]
  cases hcell : r.columns[col.idx-2]? with
  | none => rfl
  | some tok =>
    have hmem := List.mem_of_getElem? hcell
    exact congrArg some (col.convert_digits c (h.digits tok hmem).1 (h.digits tok hmem).2
      (h.held tok hmem))

/-- A row with all the columns that are read, as `fgets` stores it. -/
def IsRow (c : CLongs) (buf : Text) (r : NetRow) : Prop :=
  ∃ l : NetLine, l.Sound c ∧ 12 ≤ l.columns.length ∧ r = ⟨l.name,l.columns⟩ ∧ l.Stored buf

/-- The last line behind the head line in which the name occurs. -/
def LastWith (text name buf : Text) : Prop :=
  ∃ before after, (strings 512 text).tail = before ++ buf :: after ∧ name <:+: buf ∧
    ∀ b ∈ after, ¬name <:+: b

/-- The last line with the name in it is a row with the counters of the one named so, with
all zero where there is none. -/
def LastRowCounts (c : CLongs) (text name : Text) : Prop :=
  (∃ r ∈ netRows text, r.name = name ∧
    ∃ buf r', LastWith text name buf ∧ IsRow c buf r' ∧ r'.stats = r.stats) ∨
  (∀ r ∈ netRows text, r.name ≠ name) ∧
    ∀ buf, LastWith text name buf → ∃ r', IsRow c buf r' ∧ r'.stats = zeroStats

/-- The last line with the name in it is a row; without such a line no row is named so. -/
def LastIsRow (c : CLongs) (text name : Text) : Prop :=
  (∃ buf r, LastWith text name buf ∧ IsRow c buf r) ∨
  (∀ b ∈ (strings 512 text).tail, ¬name <:+: b) ∧ ∀ r ∈ netRows text, r.name ≠ name

section LastLine
variable {text name buf : Text} {r : NetRow}

theorem exists_lastWith (bufs : List Text) (name : Text) :
    (∀ b ∈ bufs, ¬name <:+: b) ∨
      ∃ before buf after, bufs = before ++ buf :: after ∧ name <:+: buf ∧
        ∀ b ∈ after, ¬name <:+: b := by
  induction bufs with
  | nil => exact .inl (by simp)
  | cons b bufs ih =>
    rcases ih with hnone | ⟨before,buf,after,rfl,hbuf⟩
    · by_cases hb : name <:+: b
      · exact .inr ⟨[],b,bufs,rfl,hb,hnone⟩
      · exact .inl (List.forall_mem_cons.mpr ⟨hb,hnone⟩)
    · exact .inr ⟨b :: before,buf,after,rfl,hbuf⟩

theorem foldl_readRow_unnamed {bufs : List Text} (h : ∀ b ∈ bufs, ¬name <:+: b)
    (s : DmlEthStats) : bufs.foldl (readRow c name) s = s := by
  induction bufs with
  | nil => rfl
  | cons b bufs ih =>
    obtain ⟨hb,hbufs⟩ := List.forall_mem_cons.mp h
    rw [List.foldl_cons,readRow,if_neg hb,ih hbufs]

theorem shows_of_isRow (h : IsRow c buf r) (hname : name <:+: buf) (col : StatsColumn) :
    col.shows c name buf = some (r.counter (col.idx-2)) := by
  obtain ⟨l,hsound,hfull,rfl,hbuf⟩ := h
  have hidx : col.idx-2 < l.columns.length :=
    Nat.lt_of_lt_of_le (by cases col <;> decide) hfull
  rw [hsound.shows hbuf col hname,NetRow.counter,List.getElem?_eq_getElem hidx]
  rfl

theorem readRow_of_isRow (h : IsRow c buf r) (hname : name <:+: buf) {s : DmlEthStats}
    (hs : s.unread = zeroStats.unread) : readRow c name s buf = r.stats := by
  refine DmlEthStats.ext_columns ((unread_readRow name s buf).trans hs) fun col => ?_
  rw [get_readRow,shows_of_isRow h hname,get_stats,Option.getD_some]

theorem getIfStats2_of_lastWith (hlast : LastWith text name buf) (h : IsRow c buf r) :
    (getIfStats2 c (some text) name zeroStats).2 = r.stats := by
  obtain ⟨before,after,hbufs,hname,hafter⟩ := hlast
  rw [getIfStats2_eq,hbufs,List.foldl_append,List.foldl_cons,
    readRow_of_isRow h hname (unread_readRows name before zeroStats),
    foldl_readRow_unnamed hafter]

theorem getIfStats2_of_none (h : ∀ b ∈ (strings 512 text).tail, ¬name <:+: b) :
    (getIfStats2 c (some text) name zeroStats).2 = zeroStats := by
  rw [getIfStats2_eq,foldl_readRow_unnamed h]

theorem countersOf_of_lastRowCounts (h : LastRowCounts c text name) :
    CountersOf text name (getIfStats2 c (some text) name zeroStats).2 := by
  rcases h with ⟨r,hr,hname,buf,r',hlast,hrow,hstats⟩ | ⟨hnone,hlast⟩
  · exact .inl ⟨r,hr,hname,(getIfStats2_of_lastWith hlast hrow).trans hstats⟩
  · refine .inr ⟨hnone,?_⟩
    rcases exists_lastWith (strings 512 text).tail name with hno | ⟨before,buf,after,hlines⟩
    · exact getIfStats2_of_none hno
    · obtain ⟨r',hrow,hstats⟩ := hlast buf ⟨before,after,hlines⟩
      exact (getIfStats2_of_lastWith ⟨before,after,hlines⟩ hrow).trans hstats

theorem LastWith.unique {buf' : Text} (h : LastWith text name buf)
    (h' : LastWith text name buf') : buf = buf' := by
  obtain ⟨before,after,hbufs,hname,hafter⟩ := h
  obtain ⟨before',after',hbufs',hname',hafter'⟩ := h'
  rcases List.append_eq_append_iff.mp (hbufs.symm.trans hbufs') with
    ⟨t,rfl,ht⟩ | ⟨t,rfl,ht⟩
  · cases t with
    | nil => exact (List.cons.inj ht).1
    | cons b t =>
      obtain ⟨-,rfl⟩ := List.cons.inj ht
      exact absurd hname' (hafter buf' (by simp))
  · cases t with
    | nil => exact (List.cons.inj ht).1.symm
    | cons b t =>
      obtain ⟨-,rfl⟩ := List.cons.inj ht
      exact absurd hname (hafter' buf (by simp))

end LastLine

def netText (head : Text) (rows : List NetLine) : Text :=
  terminated '\n' (head :: rows.map NetLine.text)

section Lines
variable {head : Text} {rows : List NetLine}

theorem isLine_netText (hhead : IsLine 512 head) (hrows : ∀ r ∈ rows, r.Sound c) :
    ∀ l ∈ head :: rows.map NetLine.text, IsLine 512 l := by
  refine List.forall_mem_cons.mpr ⟨hhead,fun l hl => ?_⟩
  obtain ⟨r,hr,rfl⟩ := List.mem_map.mp hl
  exact (hrows r hr).isLine

theorem strings_netText (hhead : IsLine 512 head) (hrows : ∀ r ∈ rows, r.Sound c) :
    (strings 512 (netText head rows)).tail = rows.map fun r => r.text ++ ['\n'] := by
  rw [netText,strings_lines (isLine_netText hhead hrows),List.map_cons,List.tail_cons,
    List.map_map]
  rfl

theorem netRows_netText (hhead : IsLine 512 head) (hrows : ∀ r ∈ rows, r.Sound c) :
    netRows (netText head rows) = rows.map fun r => ⟨r.name,r.columns⟩ := by
  have hrow : ∀ rows : List NetLine, (∀ r ∈ rows, r.Sound c) →
      (rows.map NetLine.text).filterMap netRow = rows.map fun r => ⟨r.name,r.columns⟩ := by
    intro rows hrows
    induction rows with
    | nil => rfl
    | cons r rows ih =>
      obtain ⟨hr,hrows⟩ := List.forall_mem_cons.mp hrows
      rw [List.map_cons,List.filterMap_cons_some hr.netRow_text,ih hrows,List.map_cons]
  rw [netRows,netText,splitOn_lines (isLine_netText hhead hrows),List.cons_append,
    List.tail_cons,List.filterMap_append,hrow rows hrows]
  exact List.append_nil _

/-- A name that no row contains but its own gets its counters, wherever the row stands. -/
theorem counters_of_lines (hhead : IsLine 512 head) (hrows : ∀ r ∈ rows, r.Sound c)
    (hfull : ∀ r ∈ rows, 12 ≤ r.columns.length) (hnames : (rows.map NetLine.name).Nodup)
    {name : Text} (hname : ∀ r ∈ rows, name <:+: r.text ++ ['\n'] → r.name = name) :
    CountersOf (netText head rows) name
      (getIfStats2 c (some (netText head rows)) name zeroStats).2 := by
  have hbufs := strings_netText hhead hrows
  have hnet := netRows_netText hhead hrows
  have hwritten : ∀ r ∈ rows, IsRow c (r.text ++ ['\n']) ⟨r.name,r.columns⟩ :=
    fun r hr => ⟨r,hrows r hr,hfull r hr,rfl,.inl rfl⟩
  have hnamed : ∀ buf, LastWith (netText head rows) name buf →
      ∃ r ∈ rows, r.name = name ∧ buf = r.text ++ ['\n'] := by
    rintro buf ⟨before,after,hsplit,hin,-⟩
    have hmem : buf ∈ (strings 512 (netText head rows)).tail := by simp [hsplit]
    rw [hbufs] at hmem
    obtain ⟨r,hr,rfl⟩ := List.mem_map.mp hmem
    exact ⟨r,hr,hname r hr hin,rfl⟩
  apply countersOf_of_lastRowCounts
  by_cases hfound : ∃ r ∈ rows, r.name = name
  · obtain ⟨r,hr,rfl⟩ := hfound
    refine .inl ⟨⟨r.name,r.columns⟩,hnet ▸ List.mem_map_of_mem hr,rfl,
      r.text ++ ['\n'],_,?_,hwritten r hr,rfl⟩
    have hown : r.name <:+: r.text ++ ['\n'] :=
      ⟨List.replicate r.blanks ' ',':' :: led ' ' r.columns ++ ['\n'],by simp [NetLine.text]⟩
    rcases exists_lastWith (strings 512 (netText head rows)).tail r.name with
      hno | ⟨before,buf,after,hlines⟩
    · exact absurd hown (hno _ (hbufs ▸ List.mem_map_of_mem hr))
    · obtain ⟨r',hr',hsame,rfl⟩ := hnamed buf ⟨before,after,hlines⟩
      obtain rfl := List.inj_on_of_nodup_map hnames hr' hr hsame
      exact ⟨before,after,hlines⟩
  · refine .inr ⟨fun row hrow => ?_,fun buf hlast => ?_⟩
    · rw [hnet] at hrow
      obtain ⟨r,hr,rfl⟩ := List.mem_map.mp hrow
      exact fun he => hfound ⟨r,hr,he⟩
    · obtain ⟨r,hr,he,-⟩ := hnamed buf hlast
      exact absurd ⟨r,hr,he⟩ hfound

end Lines

def devText : Text :=
  ("Inter-| Receive | Transmit\n face |bytes packets errs drop|bytes packets errs drop\n" ++
    "  eth1: 100 1 0 0 0 0 0 0 200 2 0 0 0 0 0 0\n" ++
    " eth10: 700 7 0 0 0 0 0 0 800 8 0 0 0 0 0 0\n").toList

def eth10Line : NetLine where
  blanks := 1
  name := "eth10".toList
  columns := ["700","7","0","0","0","0","0","0","800","8","0","0","0","0","0","0"].map
    String.toList

theorem isRow_eth10Line :
    IsRow lp64 (eth10Line.text ++ ['\n']) ⟨eth10Line.name,eth10Line.columns⟩ :=
  ⟨eth10Line,⟨by decide,by simp [eth10Line,isSpace,nul],by simp [eth10Line],
    by simp [eth10Line,digitsValue,lp64],by decide⟩,by decide,rfl,.inl rfl⟩

theorem lastWith_eth10Line {name : Text} (h : name <:+: eth10Line.text ++ ['\n']) :
    LastWith devText name (eth10Line.text ++ ['\n']) :=
  ⟨(strings 512 devText).tail.dropLast,[],by decide +kernel,h,by simp⟩

end EthAgent
