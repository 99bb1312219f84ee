import EthAgent.InterfaceRows

/-!
Transactions on the rows of `Ethernet.Interface`: Sets, a Validate of each row that
was set, and then a Commit of all of these rows or a Rollback of all of them.
-/

set_option autoImplicit false

namespace EthAgent
open CString Packed Runs

/-- `rows` are the rows touched by the Sets, in the order in which they are
validated and committed or rolled back, with how the calls made for each end. -/
structure InterfaceTransaction where
  sets : List (Nat × InterfaceSet)
  rows : List Nat
  touched : ∀ i, i ∈ rows ↔ ∃ q ∈ sets, q.1 = i
  setAnswers : Nat → SetAnswers
  getAnswers : Nat → GetAnswers

def interfaceTransaction (b : InterfaceBuild) (s : EthInterfaces) (t : InterfaceTransaction) :
    EthInterfaces :=
  let u := exec (interfaceStep b) s t.sets
  if t.rows.all (interfaceValidate u) then
    exec (fun s i => interfaceCommit b s i (t.setAnswers i)) u t.rows
  else exec (fun s i => interfaceRollback b s i (t.getAnswers i)) u t.rows

def EthInterfaces.aliases (s : EthInterfaces) : List (Buf 512) := s.rows.map fun r => r.cfg.ifAlias

def EthInterfaces.backendAliases (s : EthInterfaces) : List (Buf 512) :=
  s.entries.map fun e => e.ifAlias

def DistinctAliases (s : EthInterfaces) : Prop := s.aliases.Nodup

/-- Between transactions both copies have the same Aliases. -/
structure AliasesKept (s : EthInterfaces) : Prop where
  synced : s.aliases = s.backendAliases
  distinct : DistinctAliases s

theorem alias_iff {s : EthInterfaces} {i : Nat} {x : Buf 512} :
    s.aliases[i]? = some x ↔ ∃ row, s.rows[i]? = some row ∧ row.cfg.ifAlias = x := by
  rw [EthInterfaces.aliases,List.getElem?_map,Option.map_eq_some_iff]

theorem length_aliases (s : EthInterfaces) :
    s.aliases.length = s.entries.length ∧ s.backendAliases.length = s.entries.length := by
  simp [EthInterfaces.aliases,EthInterfaces.backendAliases,s.length_eq]

section Sets

theorem interfaceStep_alias_of_ne (b : InterfaceBuild) (s : EthInterfaces)
    {q : Nat × InterfaceSet} {i : Nat} (hi : q.1 ≠ i) :
    (interfaceStep b s q).aliases[i]? = s.aliases[i]? := by
  simp [EthInterfaces.aliases,interfaceStep,EthInterfaces.modifyRow,hi]

/-- The Sets of a transaction leave the backend, and the rows that are not touched. -/
theorem exec_interfaceStep (b : InterfaceBuild) (s : EthInterfaces)
    (sets : List (Nat × InterfaceSet)) :
    (exec (interfaceStep b) s sets).entries = s.entries ∧
      ∀ i, (∀ q ∈ sets, q.1 ≠ i) →
        (exec (interfaceStep b) s sets).aliases[i]? = s.aliases[i]? := by
  induction sets generalizing s with
  | nil => exact ⟨rfl,fun _ _ => rfl⟩
  | cons q sets ih =>
    obtain ⟨hentries,haliases⟩ := ih (interfaceStep b s q)
    refine ⟨hentries,fun i hi => ?_⟩
    rw [exec_cons,haliases i fun q' hq' => hi q' (List.mem_cons_of_mem q hq')]
    exact interfaceStep_alias_of_ne b s (hi q List.mem_cons_self)

end Sets

theorem interfaceValidate_iff (s : EthInterfaces) (i : Nat) :
    interfaceValidate s i = true ↔
      ∀ x, s.aliases[i]? = some x → ∀ j, j ≠ i → s.aliases[j]? ≠ some x := by
  unfold interfaceValidate
  cases hrow : s.rows[i]? with
  | none => simp [EthInterfaces.aliases,hrow]
  | some row =>
    have halias : s.aliases[i]? = some row.cfg.ifAlias := alias_iff.mpr ⟨row,hrow,rfl⟩
    simp only [halias,Option.some_inj,forall_eq',List.all_eq_true,List.mem_range,
      Bool.or_eq_true,decide_eq_true_eq]
    constructor
    · intro h j hj hsame
      obtain ⟨other,hother,hx⟩ := alias_iff.mp hsame
      have hlt := (List.getElem?_eq_some_iff.mp hother).1
      have hdiffers := (h j (s.length_eq ▸ hlt)).resolve_left hj
      simp [hother,hx] at hdiffers
    · intro h j _
      by_cases hj : j = i
      · exact .inl hj
      · cases hother : s.rows[j]? with
        | none => exact .inr rfl
        | some other =>
          have hne : other.cfg.ifAlias ≠ row.cfg.ifAlias := fun hx =>
            h j hj (alias_iff.mpr ⟨other,hother,hx⟩)
          exact .inr (by simpa using hne)

section CommitAndRollback

theorem PortEntry.setCfg_ifAlias (b : InterfaceBuild) (e : PortEntry) (pCfg : PortCfg)
    (a : SetAnswers) : (e.setCfg b pCfg a).ifAlias = pCfg.ifAlias := by
  unfold PortEntry.setCfg
  simp only
  split <;> split <;> simp_all

theorem backendAlias_commit (b : InterfaceBuild) (s : EthInterfaces) (i : Nat) (a : SetAnswers)
    (j : Nat) :
    (interfaceCommit b s i a).backendAliases[j]? =
      if i = j then s.aliases[j]? else s.backendAliases[j]? := by
  cases hrow : s.rows[i]? with
  | none =>
    have hlen := List.getElem?_eq_none_iff.mp hrow
    have heq : interfaceCommit b s i a = s := by simp [interfaceCommit,hrow]
    rw [heq]
    split
    · next hij =>
      subst hij
      obtain ⟨ha,hb⟩ := length_aliases s
      rw [s.length_eq] at hlen
      rw [List.getElem?_eq_none (by omega),List.getElem?_eq_none (by omega)]
    · rfl
  | some row =>
    obtain ⟨hi,-⟩ := List.getElem?_eq_some_iff.mp hrow
    have he := List.getElem?_eq_getElem (s.length_eq ▸ hi)
    obtain ⟨hi',hfound,-⟩ := getIF_row hrow he
    simp only [EthInterfaces.backendAliases,EthInterfaces.aliases,List.getElem?_map,
      interfaceCommit,hrow,cosaDmlEthPortSetCfg,hfound,List.getElem?_modify]
    by_cases hij : i = j
    · subst hij
      simp [hrow,hi',PortEntry.setCfg_ifAlias]
    · simp [hij]

theorem exec_commit (b : InterfaceBuild) (s : EthInterfaces) (answers : Nat → SetAnswers)
    (rows : List Nat) :
    (exec (fun s i => interfaceCommit b s i (answers i)) s rows).aliases = s.aliases ∧
      ∀ j, (exec (fun s i => interfaceCommit b s i (answers i)) s rows).backendAliases[j]? =
        if j ∈ rows then s.aliases[j]? else s.backendAliases[j]? := by
  refine exec_copies (fun s i => ?_) (fun s i => backendAlias_commit b s i (answers i)) s rows
  rw [EthInterfaces.aliases,rows_interfaceCommit,EthInterfaces.aliases]

theorem alias_rollback (b : InterfaceBuild) (s : EthInterfaces) (i : Nat) (a : GetAnswers)
    (j : Nat) :
    (interfaceRollback b s i a).aliases[j]? =
      if i = j then s.backendAliases[j]? else s.aliases[j]? := by
  simp only [EthInterfaces.aliases,EthInterfaces.backendAliases,List.getElem?_map,
    interfaceRollback,EthInterfaces.modifyRow,List.getElem?_modify]
  by_cases hij : i = j
  · subst hij
    cases hrow : s.rows[i]? with
    | none =>
      have hlen := List.getElem?_eq_none_iff.mp hrow
      rw [s.length_eq] at hlen
      simp [hlen]
    | some row =>
      obtain ⟨hi,-⟩ := List.getElem?_eq_some_iff.mp hrow
      have he := List.getElem?_eq_getElem (s.length_eq ▸ hi)
      rw [he]
      simp [getCfg_row hrow he,PortEntry.getCfg]
  · simp [hij]

theorem exec_rollback (b : InterfaceBuild) (s : EthInterfaces) (answers : Nat → GetAnswers)
    (rows : List Nat) :
    (exec (fun s i => interfaceRollback b s i (answers i)) s rows).backendAliases =
        s.backendAliases ∧
      ∀ j, (exec (fun s i => interfaceRollback b s i (answers i)) s rows).aliases[j]? =
        if j ∈ rows then s.backendAliases[j]? else s.aliases[j]? := by
  refine exec_copies (fun s i => ?_) (fun s i => alias_rollback b s i (answers i)) s rows
  rfl

end CommitAndRollback

/-- Two rows one of which is touched differ by validation, two untouched ones because
they are as before. -/
theorem distinct_of_validated {s u : EthInterfaces} {rows : List Nat} (h : DistinctAliases s)
    (huntouched : ∀ i, i ∉ rows → u.aliases[i]? = s.aliases[i]?)
    (hvalid : ∀ i ∈ rows, interfaceValidate u i = true) : DistinctAliases u := by
  refine List.nodup_iff_getElem?_ne_getElem?.mpr fun i j hij hj hsame => ?_
  have hi := List.getElem?_eq_getElem (Nat.lt_trans hij hj)
  by_cases htouched : i ∈ rows ∨ j ∈ rows
  · rcases htouched with hin | hjn
    · exact (interfaceValidate_iff u i).mp (hvalid i hin) _ hi j (by omega) (hsame ▸ hi)
    · exact (interfaceValidate_iff u j).mp (hvalid j hjn) _ (hsame ▸ hi) i (by omega) hi
  · rw [not_or] at htouched
    have hlt : j < s.aliases.length := by
      have hget := List.getElem?_eq_getElem hj
      rw [huntouched j htouched.2] at hget
      exact (List.getElem?_eq_some_iff.mp hget).1
    rw [huntouched i htouched.1,huntouched j htouched.2] at hsame
    exact List.nodup_iff_getElem?_ne_getElem?.mp h i j hij hlt hsame

theorem AliasesKept.transaction {b : InterfaceBuild} {s : EthInterfaces} (h : AliasesKept s)
    (t : InterfaceTransaction) : AliasesKept (interfaceTransaction b s t) := by
  obtain ⟨hentries,hrest⟩ := exec_interfaceStep b s t.sets
  have huntouched : ∀ i, i ∉ t.rows →
      (exec (interfaceStep b) s t.sets).aliases[i]? = s.aliases[i]? := fun i hi =>
    hrest i fun q hq hqi => hi ((t.touched i).mpr ⟨q,hq,hqi⟩)
  have hbackend : (exec (interfaceStep b) s t.sets).backendAliases = s.aliases := by
    rw [EthInterfaces.backendAliases,hentries,h.synced]
    rfl
  unfold interfaceTransaction
  simp only
  split
  · next hvalid =>
    obtain ⟨haliases,hcommitted⟩ := exec_commit b (exec (interfaceStep b) s t.sets) t.setAnswers
      t.rows
    constructor
    · refine List.ext_getElem? fun j => ?_
      rw [haliases,hcommitted,hbackend]
      split
      · rfl
      · next hj => exact huntouched j hj
    · rw [DistinctAliases,haliases]
      exact distinct_of_validated h.distinct huntouched (List.all_eq_true.mp hvalid)
  · obtain ⟨hkept,haliases⟩ := exec_rollback b (exec (interfaceStep b) s t.sets) t.getAnswers
      t.rows
    have hback : (exec (fun s i => interfaceRollback b s i (t.getAnswers i))
        (exec (interfaceStep b) s t.sets) t.rows).aliases = s.aliases := by
      refine List.ext_getElem? fun j => ?_
      rw [haliases,hbackend]
      split
      · rfl
      · next hj => exact huntouched j hj
    constructor
    · rw [hback,hkept,hbackend]
    · rw [DistinctAliases,hback]
      exact h.distinct

theorem interfaceAlias_injective {i j : Nat} (hi : i < 10^10) (hj : j < 10^10)
    (h : interfaceAlias i = interfaceAlias j) : i = j := by
  have htext : ∀ k, k < 10^10 →
      (interfaceAlias k).text = "Interface".toList ++ decimal k := fun k hk => by
    have hlen := length_decimal_le (by decide) hk
    refine Buf.store_text_of_lt ?_
    rw [List.length_append]
    exact Nat.lt_of_le_of_lt (Nat.add_le_add_left hlen _) (by decide)
  have heq := congrArg Buf.text h
  rw [htext i hi,htext j hj] at heq
  exact decimal_injective (List.append_cancel_left heq)

theorem aliasesKept_init (b : InterfaceBuild) (tickInSeconds : Nat) {table : List InitPort}
    (hlen : table.length < 2^31) :
    AliasesKept (cosaEthInterfaceInitialize b tickInSeconds table) := by
  have haliases : (cosaEthInterfaceInitialize b tickInSeconds table).aliases =
      (List.range table.length).map fun i => interfaceAlias (i+1) := by
    apply List.ext_getElem
    · simp [EthInterfaces.aliases,cosaEthInterfaceInitialize]
    · intro i h h'
      simp [EthInterfaces.aliases,cosaEthInterfaceInitialize,initInterface]
  constructor
  · apply List.ext_getElem
    · simp [EthInterfaces.aliases,EthInterfaces.backendAliases,cosaEthInterfaceInitialize]
    · intro i h h'
      simp [EthInterfaces.aliases,EthInterfaces.backendAliases,cosaEthInterfaceInitialize,
        initInterface,initEntry]
  · rw [DistinctAliases,haliases]
    refine List.Nodup.map_on (fun i hi j hj hij => ?_) List.nodup_range
    rw [List.mem_range] at hi hj
    have hsucc := interfaceAlias_injective (by omega) (by omega) hij
    omega

/-- From the initialisation on, whatever the transactions set, validate, commit or roll
back, the rows have distinct Aliases after each. The `int` of `%d` counts the ports. -/
theorem aliases_distinct (b : InterfaceBuild) (tickInSeconds : Nat) (table : List InitPort)
    (hlen : table.length < 2^31) (transactions : List InterfaceTransaction) :
    Always (interfaceTransaction b) DistinctAliases
      (cosaEthInterfaceInitialize b tickInSeconds table) transactions :=
  always_of_meets (J := AliasesKept) (C := fun _ _ => True) (aliasesKept_init b tickInSeconds hlen)
    (fun _ t h _ => h.transaction t) (fun _ h => h.distinct) (meets_of_forall fun _ _ => trivial)

def exchange : InterfaceTransaction where
  sets := [(0,.ifAlias "Interface2".toList),(1,.ifAlias "Interface1".toList)]
  rows := [0,1]
  touched := by simp [eq_comm]
  setAnswers := fun _ => allSet
  getAnswers := fun _ => allDone

theorem aliases_distinct_exchange :
    Always (interfaceTransaction ⟨false,false⟩) DistinctAliases (twoPorts ⟨false,false⟩)
      [exchange,exchange] :=
  aliases_distinct ⟨false,false⟩ 0 _ (by decide) _

end EthAgent
