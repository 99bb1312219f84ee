import EthAgent.PortRows
import EthAgent.Lib.Cycling

/-!
The instance number of a new row, and its place in `Q_EthList`: the loop of
`InitEthIfaceEntry` and `CosaSListPushEntryByInsNum`.
-/

set_option autoImplicit false

namespace EthAgent
open CString Cycling

/-- `Q_EthList` as it lies in memory, each link at its address. An address fits in the
word of a `ULONG`, is not NULL and is even. -/
structure LinkedRows (p : Platform) where
  links : List (Nat × EthRow)
  addresses : (links.map Prod.fst).Nodup
  placed : ∀ l ∈ links, 0 < l.1 ∧ l.1 < 2^p.ulongBits ∧ l.1%2 = 0

def LinkedRows.rows {p : Platform} (l : LinkedRows p) : List EthRow := l.links.map Prod.snd

structure AnscSList where
  pushEntryAtBack : List EthRow → EthRow → List EthRow
  pushEntryByIndex : List EthRow → EthRow → Nat → List EthRow

/-- They insert where they are told to. -/
structure AnscSList.Inserts (s : AnscSList) : Prop where
  atBack : ∀ rows row, s.pushEntryAtBack rows row = rows ++ [row]
  byIndex : ∀ rows row i, i < rows.length →
    s.pushEntryByIndex rows row i = rows.take i ++ row :: rows.drop i

/-- The loop of `CosaSListPushEntryByInsNum` over the links that are left, from
`ulIndex` on: the index to insert at. -/
def insertionIndex (row : EthRow) : Nat → List EthRow → Option Nat
  | _, [] => none
  | ulIndex, r :: rows =>
    if row.ulInstanceNumber < r.ulInstanceNumber then some ulIndex
    else insertionIndex row (ulIndex+1) rows

def pushEntryByInsNum (s : AnscSList) (rows : List EthRow) (row : EthRow) : List EthRow :=
  if rows.length = 0 then s.pushEntryAtBack rows row
  else
    match insertionIndex row 0 rows with
    | some ulIndex => s.pushEntryByIndex rows row ulIndex
    | none => s.pushEntryAtBack rows row

section Insertion

theorem insertionIndex_cases (row : EthRow) (before rows : List EthRow) :
    (insertionIndex row before.length rows = none ∧
        cosaSListPushEntryByInsNum row rows = rows ++ [row]) ∨
      ∃ i, insertionIndex row before.length rows = some i ∧ i < (before ++ rows).length ∧
        before ++ cosaSListPushEntryByInsNum row rows =
          (before ++ rows).take i ++ row :: (before ++ rows).drop i := by
  induction rows generalizing before with
  | nil => exact .inl ⟨rfl,rfl⟩
  | cons r rows ih =>
    by_cases hlt : row.ulInstanceNumber < r.ulInstanceNumber
    · refine .inr ⟨before.length,by simp [insertionIndex,hlt],by simp,?_⟩
      simp [cosaSListPushEntryByInsNum,hlt]
    · have hrest := ih (before ++ [r])
      simp only [List.length_append,List.length_singleton,List.append_assoc,
        List.singleton_append] at hrest
      simp only [insertionIndex,cosaSListPushEntryByInsNum,hlt,if_false]
      rcases hrest with ⟨hnone,hback⟩ | ⟨i,hsome,hi,hinsert⟩
      · exact .inl ⟨hnone,by rw [hback]; rfl⟩
      · exact .inr ⟨i,hsome,by simpa using hi,hinsert⟩

theorem pushEntryByInsNum_eq {s : AnscSList} (hs : s.Inserts) (rows : List EthRow)
    (row : EthRow) : pushEntryByInsNum s rows row = cosaSListPushEntryByInsNum row rows := by
  unfold pushEntryByInsNum
  split
  · next hempty =>
    rw [List.length_eq_zero_iff] at hempty
    rw [hs.atBack,hempty]
    rfl
  · rcases insertionIndex_cases row [] rows with ⟨hnone,hback⟩ | ⟨i,hsome,hi,hinsert⟩
    · rw [List.length_nil] at hnone
      rw [hnone,hback]
      exact hs.atBack rows row
    · rw [List.length_nil] at hsome
      rw [hsome]
      exact (hs.byIndex rows row i hi).trans hinsert.symm

def Ascending (rows : List EthRow) : Prop :=
  rows.Pairwise fun r r' => r.ulInstanceNumber < r'.ulInstanceNumber

theorem Ascending.pushEntry {rows : List EthRow} (h : Ascending rows) {row : EthRow}
    (hfresh : ∀ r ∈ rows, r.ulInstanceNumber ≠ row.ulInstanceNumber) :
    Ascending (cosaSListPushEntryByInsNum row rows) := by
  induction rows with
  | nil => exact List.pairwise_singleton _ _
  | cons r rows ih =>
    obtain ⟨hr,hrows⟩ := List.pairwise_cons.mp h
    unfold cosaSListPushEntryByInsNum
    split
    · next hlt =>
      refine List.pairwise_cons.mpr ⟨fun r' hr' => ?_,h⟩
      rcases List.mem_cons.mp hr' with rfl | hmem
      · exact hlt
      · exact hlt.trans (hr r' hmem)
    · next hge =>
      have hne := hfresh r List.mem_cons_self
      refine List.pairwise_cons.mpr ⟨fun r' hr' => ?_,
        ih hrows fun r' hr' => hfresh r' (List.mem_cons_of_mem r hr')⟩
      rcases List.mem_cons.mp ((perm_pushEntry row rows).mem_iff.mp hr') with rfl | hmem
      · omega
      · exact hr r' hmem

end Insertion

section Allocation

variable {p : Platform}

/-- The largest `ULONG`, and so the number of those that are not zero. -/
def Platform.maxUlong (p : Platform) : Nat := 2^p.ulongBits-1

theorem LinkedRows.length_lt (l : LinkedRows p) (hword : 0 < p.ulongBits) :
    l.rows.length < p.maxUlong := by
  have hpow : 2 ≤ 2^p.ulongBits := by
    rw [← Nat.pow_one 2]
    exact Nat.pow_le_pow_right (by decide) hword
  have hodd : 1 ∉ l.links.map Prod.fst := by
    intro hmem
    obtain ⟨x,hx,hone⟩ := List.mem_map.mp hmem
    have heven := (l.placed x hx).2.2
    rw [hone] at heven
    exact absurd heven (by decide)
  have hplaced : ∀ a ∈ l.links.map Prod.fst, 0 < a ∧ a ≤ p.maxUlong := by
    intro a ha
    obtain ⟨x,hx,rfl⟩ := List.mem_map.mp ha
    have hx' := l.placed x hx
    rw [Platform.maxUlong]
    omega
  have hlength := length_lt_of_nodup l.addresses hplaced
    (b := 1) ⟨Nat.one_pos,by rw [Platform.maxUlong]; omega⟩ hodd
  simpa [LinkedRows.rows] using hlength

def tried (ulPtNextInstanceNumber : Nat) : Nat :=
  if ulPtNextInstanceNumber = 0 then 1 else ulPtNextInstanceNumber

/-- The numbers tried in one round and in the next, where the counter may wrap to zero. -/
theorem tried_next {k s next : Nat} (hword : 0 < p.maxUlong)
    (h : tried next = cycle p.maxUlong s k) :
    tried ((tried next+1)%2^p.ulongBits) = cycle p.maxUlong s (k+1) := by
  have hle := cycle_le hword s k
  have hpow : 2^p.ulongBits = p.maxUlong+1 := by
    rw [Platform.maxUlong]
    have hpos := Nat.two_pow_pos p.ulongBits
    omega
  rw [h,cycle_succ,hpow]
  split
  · next hlast =>
    rw [hlast,Nat.mod_self]
    rfl
  · next hnot =>
    rw [Nat.mod_eq_of_lt (by omega)]
    exact if_neg (Nat.succ_ne_zero _)

theorem freeInstance_succ (p : Platform) (rows : List EthRow) (fuel next : Nat) :
    freeInstance p rows (fuel+1) next =
      if tried next ∈ rows.map EthRow.ulInstanceNumber then
        freeInstance p rows fuel ((tried next+1)%2^p.ulongBits)
      else some (tried next) := by
  have hmem : (rows.any fun r => r.ulInstanceNumber = tried next) = true ↔
      tried next ∈ rows.map EthRow.ulInstanceNumber := by
    simp only [List.any_eq_true,decide_eq_true_eq,List.mem_map]
  exact if_congr hmem rfl rfl

theorem freeInstance_cycle {rows : List EthRow} {s k next : Nat} (j : Nat) (hword : 0 < p.maxUlong)
    (h : tried next = cycle p.maxUlong s k)
    (hused : ∀ i < j, cycle p.maxUlong s (k+i) ∈ rows.map EthRow.ulInstanceNumber)
    (hfree : cycle p.maxUlong s (k+j) ∉ rows.map EthRow.ulInstanceNumber)
    {fuel : Nat} (hfuel : j < fuel) :
    freeInstance p rows fuel next = some (cycle p.maxUlong s (k+j)) := by
  induction j generalizing k next fuel with
  | zero =>
    obtain ⟨fuel,rfl⟩ := Nat.exists_eq_succ_of_ne_zero (Nat.ne_of_gt hfuel)
    rw [Nat.add_zero] at hfree ⊢
    rw [freeInstance_succ,h,if_neg hfree]
  | succ j ih =>
    obtain ⟨fuel,rfl⟩ := Nat.exists_eq_succ_of_ne_zero (Nat.ne_of_gt (Nat.zero_lt_of_lt hfuel))
    have hfirst := hused 0 (Nat.succ_pos j)
    rw [Nat.add_zero,← h] at hfirst
    rw [freeInstance_succ,if_pos hfirst]
    have hshift : ∀ i, k+1+i = k+(i+1) := fun i => by omega
    rw [← hshift]
    refine ih (tried_next hword h) (fun i hi => ?_) ?_ (by omega)
    · rw [hshift]
      exact hused (i+1) (by omega)
    · rw [hshift]
      exact hfree

theorem freeInstance_ends (l : LinkedRows p) (hword : 0 < p.ulongBits) {next : Nat}
    (hnext : next < 2^p.ulongBits) :
    ∃ n, (∀ fuel, l.rows.length < fuel → freeInstance p l.rows fuel next = some n) ∧
      0 < n ∧ n < 2^p.ulongBits ∧ ∀ r ∈ l.rows, r.ulInstanceNumber ≠ n := by
  have hlength := l.length_lt hword
  have hmax : 0 < p.maxUlong := by omega
  have htried : tried next = cycle p.maxUlong (tried next) 0 := by
    refine (cycle_zero ?_ ?_).symm
    · unfold tried; split <;> omega
    · unfold tried
      rw [Platform.maxUlong] at hmax ⊢
      split <;> omega
  have hused : (l.rows.map EthRow.ulInstanceNumber).length < p.maxUlong := by
    simpa using hlength
  obtain ⟨k,hk,hfree⟩ := exists_unused hused (tried next)
  -- The first free number is the one that the loop finds.
  have hexists : ∃ k, cycle p.maxUlong (tried next) k ∉ l.rows.map EthRow.ulInstanceNumber :=
    ⟨k,hfree⟩
  have hfirst := Nat.find_spec hexists
  have hbefore : ∀ i < Nat.find hexists,
      cycle p.maxUlong (tried next) i ∈ l.rows.map EthRow.ulInstanceNumber :=
    fun i hi => not_not.mp (Nat.find_min hexists hi)
  have hfound : Nat.find hexists ≤ l.rows.length :=
    (Nat.find_min' hexists hfree).trans (by simpa using hk)
  have hmaxUlong : p.maxUlong = 2^p.ulongBits-1 := rfl
  refine ⟨cycle p.maxUlong (tried next) (Nat.find hexists),fun fuel hfuel => ?_,
    cycle_pos _ _ _,?_,fun r hr heq => hfirst (List.mem_map.mpr ⟨r,hr,heq⟩)⟩
  · have hloop := freeInstance_cycle (Nat.find hexists) hmax htried
      (fun i hi => by rw [Nat.zero_add]; exact hbefore i hi) (by rw [Nat.zero_add]; exact hfirst)
      (lt_of_le_of_lt hfound hfuel)
    rwa [Nat.zero_add] at hloop
  · have hle := cycle_le hmax (tried next) (Nat.find hexists)
    omega

/-- An addition gives the new row a number of its own that is not zero, and leaves the
rows that there were and the new one, in ascending order if they were. -/
theorem instance_allocated (l : LinkedRows p) (hword : 0 < p.ulongBits) {e : Ethernet}
    (hrows : e.qEthList = l.rows) (hnext : e.ulPtNextInstanceNumber < 2^p.ulongBits)
    {s : AnscSList} (hs : s.Inserts) (reallocated : Bool) :
    ∃ n, (∀ fuel, l.rows.length < fuel →
        freeInstance p l.rows fuel e.ulPtNextInstanceNumber = some n) ∧
      0 < n ∧ n < 2^p.ulongBits ∧ (∀ r ∈ l.rows, r.ulInstanceNumber ≠ n) ∧
      (ethRdkInterfaceAddEntry p true reallocated e).1 = some n ∧
      (ethRdkInterfaceAddEntry p true reallocated e).2.qEthList =
        pushEntryByInsNum s l.rows (newRow n) ∧
      (pushEntryByInsNum s l.rows (newRow n)).Perm (newRow n :: l.rows) ∧
      (Ascending l.rows → Ascending (pushEntryByInsNum s l.rows (newRow n))) := by
  obtain ⟨n,hloop,hpos,hlt,hfresh⟩ := freeInstance_ends l hword hnext
  have hinit : initEthIfaceEntry p e = some (newRow n,(n+1)%2^p.ulongBits) := by
    rw [initEthIfaceEntry,hrows,hloop _ (Nat.lt_succ_self _)]
    rfl
  refine ⟨n,hloop,hpos,hlt,hfresh,?_⟩
  rw [pushEntryByInsNum_eq hs,← hrows]
  simp only [ethRdkInterfaceAddEntry,hinit,if_true]
  refine ⟨rfl,trivial,perm_pushEntry _ _,fun hasc => hasc.pushEntry fun r hr => ?_⟩
  exact hfresh r (by rwa [hrows] at hr)

/-- Two rows of a platform of 32 bits, the second with the largest number. -/
def twoRows : LinkedRows fourPorts where
  links := [(4096,newRow 1),(4112,newRow (2^32-1))]
  addresses := by simp
  placed := by
    intro l hl
    simp only [List.mem_cons,List.not_mem_nil,or_false] at hl
    rcases hl with rfl | rfl
    · exact ⟨by decide,by decide,by decide⟩
    · exact ⟨by decide,by decide,by decide⟩

def listPrimitives : AnscSList where
  pushEntryAtBack := fun rows row => rows ++ [row]
  pushEntryByIndex := fun rows row i => rows.take i ++ row :: rows.drop i

/-- The next number is taken, and so is the first after the wrap. -/
theorem instance_allocated_two_rows :
    ∃ n, (∀ fuel, twoRows.rows.length < fuel →
        freeInstance fourPorts twoRows.rows fuel (2^32-1) = some n) ∧
      0 < n ∧ n < 2^fourPorts.ulongBits ∧ (∀ r ∈ twoRows.rows, r.ulInstanceNumber ≠ n) ∧
      (ethRdkInterfaceAddEntry fourPorts true true
        ⟨⟨none,0,0⟩,2^32-1,twoRows.rows⟩).1 = some n ∧
      (ethRdkInterfaceAddEntry fourPorts true true
        ⟨⟨none,0,0⟩,2^32-1,twoRows.rows⟩).2.qEthList =
        pushEntryByInsNum listPrimitives twoRows.rows (newRow n) ∧
      (pushEntryByInsNum listPrimitives twoRows.rows (newRow n)).Perm
        (newRow n :: twoRows.rows) ∧
      (Ascending twoRows.rows →
        Ascending (pushEntryByInsNum listPrimitives twoRows.rows (newRow n))) :=
  instance_allocated twoRows (by decide) (e := ⟨⟨none,0,0⟩,2^32-1,twoRows.rows⟩) rfl (by decide)
    ⟨fun _ _ => rfl,fun _ _ _ _ => rfl⟩ true

end Allocation

end EthAgent
