import Mathlib.Data.List.Basic

/-!
Tables filled row by row. Filling a row can go wrong in two ways: `none` is an
undefined read, after which nothing can be said, and `some none` gives the whole
table up.
-/

set_option autoImplicit false

namespace Filling

universe u v w
variable {α : Type u} {β : Type u} {γ : Type w} {σ : Type u} {ρ : Type v}

section Undefined

variable {f : α → Option β}

theorem mapM_eq_some_iff {l : List α} {l' : List β} :
    l.mapM f = some l' ↔ l.map f = l'.map some := by
  induction l generalizing l' with
  | nil => cases l' <;> simp
  | cons a l ih =>
    rw [List.mapM_cons]
    constructor
    · intro h
      simp only [Option.bind_eq_bind,Option.bind_eq_some_iff,Option.pure_def,
        Option.some_inj] at h
      obtain ⟨b,hb,m,hm,rfl⟩ := h
      rw [List.map_cons,List.map_cons,hb,ih.mp hm]
    · cases l' with
      | nil => simp
      | cons b m =>
        intro h
        rw [List.map_cons,List.map_cons,List.cons.injEq] at h
        simp [h.1,ih.mpr h.2]

theorem exists_mapM_iff {l : List α} :
    (∃ l', l.mapM f = some l') ↔ ∀ a ∈ l, ∃ b, f a = some b := by
  induction l with
  | nil => simp
  | cons a l ih =>
    rw [List.forall_mem_cons,← ih]
    constructor
    · rintro ⟨l',h⟩
      rw [mapM_eq_some_iff] at h
      cases l' with
      | nil => simp at h
      | cons b m =>
        rw [List.map_cons,List.map_cons,List.cons.injEq] at h
        exact ⟨⟨b,h.1⟩,⟨m,mapM_eq_some_iff.mpr h.2⟩⟩
    · rintro ⟨⟨b,hb⟩,⟨m,hm⟩⟩
      exact ⟨b :: m,by simp [hb,hm]⟩

theorem length_mapM {l : List α} {l' : List β} (h : l.mapM f = some l') :
    l'.length = l.length := by
  simpa using (congrArg List.length (mapM_eq_some_iff.mp h)).symm

theorem map_mapM {g : β → γ} {k : α → γ} (hfg : ∀ a b, f a = some b → g b = k a)
    {l : List α} {l' : List β} (h : l.mapM f = some l') : l'.map g = l.map k := by
  have hrows := mapM_eq_some_iff.mp h
  apply List.ext_getElem
  · simp [length_mapM h]
  · intro i hi hi'
    have hrow := congrArg (fun m => m[i]?) hrows
    rw [List.length_map] at hi hi'
    simp only [List.getElem?_map,List.getElem?_eq_getElem hi,List.getElem?_eq_getElem hi',
      Option.map_some,Option.some_inj] at hrow
    simpa using hfg _ _ hrow

end Undefined

/-- Rows read one after another, with a state that each hands on to the next. -/
def readRows (read : Nat → σ → Option (Option (ρ × σ))) :
    (rows i : Nat) → σ → Option (Option (List ρ))
  | 0, _, _ => some (some [])
  | rows+1, i, s =>
    match read i s with
    | none => none
    | some none => some none
    | some (some (r,s)) => (readRows read rows (i+1) s).map (Option.map (r :: ·))

section Rows

variable {read : Nat → σ → Option (Option (ρ × σ))}

theorem readRows_succ_eq_some_iff {n i : Nat} {s : σ} {rows : List ρ} :
    readRows read (n+1) i s = some (some rows) ↔
      ∃ r s' rest, read i s = some (some (r,s')) ∧
        readRows read n (i+1) s' = some (some rest) ∧ rows = r :: rest := by
  rw [readRows]
  cases hread : read i s with
  | none => simp
  | some o =>
    cases o with
    | none => simp
    | some r =>
      obtain ⟨r,s'⟩ := r
      simp only [Option.map_eq_some_iff,Option.some_inj,Prod.mk.injEq]
      constructor
      · rintro ⟨m,hm,rest,rfl,rfl⟩
        exact ⟨r,s',rest,⟨rfl,rfl⟩,hm,rfl⟩
      · rintro ⟨r',s'',rest,⟨rfl,rfl⟩,hm,rfl⟩
        exact ⟨some rest,hm,rest,rfl,rfl⟩

theorem length_readRows {n i : Nat} {s : σ} {rows : List ρ}
    (h : readRows read n i s = some (some rows)) : rows.length = n := by
  induction n generalizing i s rows with
  | zero =>
    obtain rfl := Option.some_inj.mp (Option.some_inj.mp h)
    rfl
  | succ n ih =>
    obtain ⟨r,s',rest,-,hrest,rfl⟩ := readRows_succ_eq_some_iff.mp h
    rw [List.length_cons,ih hrest]

theorem map_readRows {g : ρ → γ} {k : Nat → γ}
    (hread : ∀ i s r s', read i s = some (some (r,s')) → g r = k i) {n i : Nat} {s : σ}
    {rows : List ρ} (h : readRows read n i s = some (some rows)) :
    rows.map g = (List.range' i n).map k := by
  induction n generalizing i s rows with
  | zero =>
    obtain rfl := Option.some_inj.mp (Option.some_inj.mp h)
    rfl
  | succ n ih =>
    obtain ⟨r,s',rest,hr,hrest,rfl⟩ := readRows_succ_eq_some_iff.mp h
    rw [List.map_cons,List.range'_succ,List.map_cons,ih hrest,hread _ _ _ _ hr]

/-- Whether a row can be read, and whether reading it is defined, does not depend on
the rows before it. -/
structure ReadsBy (read : Nat → σ → Option (Option (ρ × σ))) (Defined Readable : Nat → Prop) :
    Prop where
  defined : ∀ i s, (∃ o, read i s = some o) ↔ Defined i
  readable : ∀ i s o, read i s = some o → (o ≠ none ↔ Readable i)

variable {Defined Readable : Nat → Prop}

theorem exists_readRows_iff (h : ReadsBy read Defined Readable) {n i : Nat} {s : σ} :
    (∃ o, readRows read n i s = some o) ↔
      ∀ j < n, (∀ k < j, Readable (i+k)) → Defined (i+j) := by
  induction n generalizing i s with
  | zero => simp [readRows]
  | succ n ih =>
    have hshift : ∀ j, i+1+j = i+(j+1) := fun j => by omega
    have hsplit : (∀ j < n+1, (∀ k < j, Readable (i+k)) → Defined (i+j)) ↔
        Defined i ∧ (Readable i → ∀ j < n, (∀ k < j, Readable (i+1+k)) → Defined (i+1+j)) := by
      simp only [hshift]
      constructor
      · intro hall
        refine ⟨hall 0 (by omega) (fun k hk => absurd hk (Nat.not_lt_zero k)),
          fun hi j hj hbefore => hall (j+1) (by omega) fun k hk => ?_⟩
        cases k with
        | zero => exact hi
        | succ k => exact hbefore k (by omega)
      · rintro ⟨hi,hrest⟩ j hj hbefore
        cases j with
        | zero => exact hi
        | succ j =>
          exact hrest (hbefore 0 (by omega)) j (by omega) fun k hk => hbefore (k+1) (by omega)
    rw [hsplit,← h.defined i s,readRows]
    cases hread : read i s with
    | none => simp
    | some o =>
      have hreadable := h.readable i s o hread
      cases o with
      | none => simp [← hreadable]
      | some r => simp [← hreadable,← ih (s := r.2)]

theorem readRows_eq_none_iff (h : ReadsBy read Defined Readable) {n i : Nat} {s : σ}
    {o : Option (List ρ)} (ho : readRows read n i s = some o) :
    o = none ↔ ∃ j < n, ¬Readable (i+j) := by
  induction n generalizing i s o with
  | zero =>
    obtain rfl := Option.some_inj.mp ho
    simp
  | succ n ih =>
    have hsplit : (∃ j < n+1, ¬Readable (i+j)) ↔
        ¬Readable i ∨ ∃ j < n, ¬Readable (i+1+j) := by
      have hshift : ∀ j, i+1+j = i+(j+1) := fun j => by omega
      simp only [hshift]
      constructor
      · rintro ⟨j,hj,hnot⟩
        cases j with
        | zero => exact .inl hnot
        | succ j => exact .inr ⟨j,by omega,hnot⟩
      · rintro (hnot | ⟨j,hj,hnot⟩)
        · exact ⟨0,by omega,hnot⟩
        · exact ⟨j+1,by omega,hnot⟩
    rw [hsplit]
    rw [readRows] at ho
    cases hread : read i s with
    | none => simp [hread] at ho
    | some p =>
      have hreadable := h.readable i s p hread
      cases p with
      | none =>
        simp only [hread,Option.some_inj] at ho
        simp [← ho,← hreadable]
      | some r =>
        simp only [hread,Option.map_eq_some_iff] at ho
        obtain ⟨o',ho',rfl⟩ := ho
        simp [← hreadable,← ih ho']

end Rows

end Filling
