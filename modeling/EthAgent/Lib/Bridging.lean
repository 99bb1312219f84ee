import Mathlib.Data.Option.Basic
import Mathlib.Logic.Function.Basic
import Mathlib.Tactic.SplitIfs

/-!
Network devices and bridges, as the commands `ip link`, `ifconfig` and `brctl` change
them. A command which fails changes nothing. Devices have unique names, and a device
belongs to one bridge at most, its master.

What commands do to the devices that they name is seen on those devices alone, under
whatever names: `Agrees.runAll`.
-/

set_option autoImplicit false

namespace Bridging

universe u v w x
variable {ν : Type u} {ι : Type v} {κ : Type w} {θ : Type x}

@[ext]
structure Device (ν : Type u) (ι : Type v) where
  hardware : Option ι
  up : Bool
  master : Option ν

abbrev Network (ν : Type u) (ι : Type v) := ν → Option (Device ν ι)

inductive Command (ν : Type u) where
  | setUp (dev : ν)
  | setDown (dev : ν)
  | rename (dev name : ν)
  | addbr (br : ν)
  | delbr (br : ν)
  | addif (br dev : ν)
  | delif (br dev : ν)

def isBridge (n : Network ν ι) (br : ν) : Bool := (n br).any fun d => d.hardware.isNone

def MemberOf (n : Network ν ι) (dev br : ν) : Prop :=
  (n dev).bind Device.master = some br ∧ isBridge n br

def Device.join (br : ν) (d : Device ν ι) : Device ν ι :=
  if d.hardware.isSome ∧ d.master.isNone then { d with master := some br } else d

section commands
variable [DecidableEq ν]

def adjust (n : Network ν ι) (dev : ν) (f : Device ν ι → Device ν ι) : Network ν ι :=
  fun x => if x = dev then (n x).map f else n x

/-- A device whose master changes its name, or is gone. -/
def Device.follow (old : ν) (new : Option ν) (d : Device ν ι) : Device ν ι :=
  { d with master := if d.master = some old then new else d.master }

def Device.leave (br : ν) (d : Device ν ι) : Device ν ι :=
  { d with master := if d.master = some br then none else d.master }

def Device.set (up : Bool) (d : Device ν ι) : Device ν ι := { d with up := up }

/-- A device is renamed only while it is down, and to a name that is free; a bridge is
deleted only while it is down; a device joins a bridge only if it has no master. -/
def Command.run (n : Network ν ι) : Command ν → Network ν ι
  | .setUp dev => adjust n dev (Device.set true)
  | .setDown dev => adjust n dev (Device.set false)
  | .rename dev name =>
    match n dev,n name with
    | some d,none =>
      if d.up then n
      else fun x =>
        if x = name then some d else if x = dev then none
        else (n x).map (Device.follow dev (some name))
    | _,_ => n
  | .addbr br =>
    match n br with
    | some _ => n
    | none => fun x => if x = br then some ⟨none,false,none⟩ else n x
  | .delbr br =>
    match n br with
    | none => n
    | some d =>
      if d.hardware.isSome ∨ d.up then n
      else fun x => if x = br then none else (n x).map (Device.follow br none)
  | .addif br dev => if isBridge n br then adjust n dev (Device.join br) else n
  | .delif br dev => if isBridge n br then adjust n dev (Device.leave br) else n

def runAll (n : Network ν ι) (cs : List (Command ν)) : Network ν ι := cs.foldl Command.run n

end commands

def Device.map (f : κ → ν) (g : θ → ι) (d : Device κ θ) : Device ν ι :=
  ⟨d.hardware.map g,d.up,d.master.map f⟩

def Command.map (f : κ → ν) : Command κ → Command ν
  | .setUp dev => .setUp (f dev)
  | .setDown dev => .setDown (f dev)
  | .rename dev name => .rename (f dev) (f name)
  | .addbr br => .addbr (f br)
  | .delbr br => .delbr (f br)
  | .addif br dev => .addif (f br) (f dev)
  | .delif br dev => .delif (f br) (f dev)

/-- What `v` says of some devices holds in the network, where they have the names and
the hardware that `f` and `g` give them. -/
def Agrees (f : κ → ν) (g : θ → ι) (v : Network κ θ) (n : Network ν ι) : Prop :=
  ∀ k, n (f k) = (v k).map (Device.map f g)

variable {f : κ → ν} {g : θ → ι} {v : Network κ θ} {n : Network ν ι}

theorem Agrees.isBridge_eq (h : Agrees f g v n) (br : κ) :
    isBridge n (f br) = isBridge v br := by
  rw [isBridge,isBridge,h br]
  cases v br <;> simp [Device.map]

theorem Agrees.hardware_eq (h : Agrees f g v n) (k : κ) :
    (n (f k)).bind Device.hardware = ((v k).bind Device.hardware).map g := by
  rw [h k]
  cases v k <;> rfl

theorem Agrees.memberOf_iff (h : Agrees f g v n) (k : κ) (br : ν) :
    MemberOf n (f k) br ↔ ∃ j, f j = br ∧ MemberOf v k j := by
  have hmaster : (n (f k)).bind Device.master = ((v k).bind Device.master).map f := by
    rw [h k]
    cases v k <;> rfl
  simp only [MemberOf,hmaster,Option.map_eq_some_iff]
  constructor
  · rintro ⟨⟨j,hj,rfl⟩,hbr⟩
    exact ⟨j,rfl,hj,(h.isBridge_eq j).symm.trans hbr⟩
  · rintro ⟨j,rfl,hj,hbr⟩
    exact ⟨⟨j,hj,rfl⟩,(h.isBridge_eq j).trans hbr⟩

theorem map_eq_some_apply (hf : Function.Injective f) (m : Option κ) (k : κ) :
    m.map f = some (f k) ↔ m = some k := by
  cases m <;> simp [hf.eq_iff]

theorem Device.map_join (br : κ) (d : Device κ θ) :
    (d.map f g).join (f br) = (d.join br).map f g := by
  simp only [Device.join,Device.map,Option.isSome_map,Option.isNone_map]
  split <;> rfl

variable [DecidableEq ν] [DecidableEq κ]

theorem Agrees.adjust (h : Agrees f g v n) (hf : Function.Injective f) {dev : κ}
    {F : Device κ θ → Device κ θ} {G : Device ν ι → Device ν ι}
    (hG : ∀ d, G (d.map f g) = (F d).map f g) :
    Agrees f g (adjust v dev F) (adjust n (f dev) G) := by
  intro k
  simp only [Bridging.adjust,hf.eq_iff]
  split
  · rw [h k,Option.map_map,Option.map_map]
    exact congrArg (fun m => (v k).map m) (funext hG)
  · exact h k

theorem Device.map_follow (hf : Function.Injective f) (old : κ) (new : Option κ)
    (d : Device κ θ) :
    (d.map f g).follow (f old) (new.map f) = (d.follow old new).map f g := by
  simp only [Device.follow,Device.map,map_eq_some_apply hf]
  split <;> rfl

theorem Agrees.map_follow (h : Agrees f g v n) (hf : Function.Injective f) (old : κ)
    (new : Option κ) (k : κ) :
    (n (f k)).map (Device.follow (f old) (new.map f)) =
      ((v k).map (Device.follow old new)).map (Device.map f g) := by
  rw [h k,Option.map_map,Option.map_map]
  exact congrArg (fun m => (v k).map m) (funext (Device.map_follow hf old new))

theorem Device.map_leave (hf : Function.Injective f) (br : κ) (d : Device κ θ) :
    (d.map f g).leave (f br) = (d.leave br).map f g := by
  simp only [Device.leave,Device.map,map_eq_some_apply hf]
  split <;> rfl

/-- A command sees of other devices only whether they are in its way. -/
theorem Agrees.run (h : Agrees f g v n) (hf : Function.Injective f) (c : Command κ) :
    Agrees f g (c.run v) ((c.map f).run n) := by
  cases c with
  | setUp dev => exact h.adjust hf fun d => rfl
  | setDown dev => exact h.adjust hf fun d => rfl
  | rename dev name =>
    intro k
    simp only [Command.map,Command.run,h dev,h name]
    cases v dev with
    | none => exact h k
    | some d =>
      cases v name with
      | some d' => exact h k
      | none =>
        have hmap : (d.map f g).up = d.up := rfl
        simp only [Option.map_some,Option.map_none]
        by_cases hup : d.up
        · rw [if_pos hup,if_pos (hmap.trans hup)]
          exact h k
        · rw [if_neg hup,if_neg (hmap ▸ hup)]
          simp only [hf.eq_iff]
          split_ifs
          · rfl
          · rfl
          · exact h.map_follow hf dev (some name) k
  | addbr br =>
    intro k
    simp only [Command.map,Command.run,h br]
    cases v br with
    | some d => exact h k
    | none =>
      simp only [Option.map_none,hf.eq_iff]
      split
      · rfl
      · exact h k
  | delbr br =>
    intro k
    simp only [Command.map,Command.run,h br]
    cases v br with
    | none => exact h k
    | some d =>
      have hmap : ((d.map f g).hardware.isSome ∨ (d.map f g).up) ↔ d.hardware.isSome ∨ d.up := by
        simp [Device.map]
      simp only [Option.map_some]
      by_cases hkept : d.hardware.isSome ∨ d.up
      · rw [if_pos hkept,if_pos (hmap.mpr hkept)]
        exact h k
      · rw [if_neg hkept,if_neg (hmap.not.mpr hkept)]
        simp only [hf.eq_iff]
        split
        · rfl
        · exact h.map_follow hf br none k
  | addif br dev =>
    simp only [Command.map,Command.run,h.isBridge_eq]
    split
    · exact h.adjust hf (Device.map_join br)
    · exact h
  | delif br dev =>
    simp only [Command.map,Command.run,h.isBridge_eq]
    split
    · exact h.adjust hf (Device.map_leave hf br)
    · exact h

theorem Agrees.runAll (h : Agrees f g v n) (hf : Function.Injective f) (cs : List (Command κ)) :
    Agrees f g (runAll v cs) (runAll n (cs.map (Command.map f))) := by
  induction cs generalizing v n with
  | nil => exact h
  | cons c cs ih => exact ih (h.run hf c)

theorem Agrees.program (h : Agrees f g v n) (hf : Function.Injective f) {cs : List (Command κ)}
    {ds : List (Command ν)} (hds : ds = cs.map (Command.map f)) {v' : Network κ θ}
    (hv : Bridging.runAll v cs = v') : Agrees f g v' (Bridging.runAll n ds) := by
  rw [hds,← hv]
  exact h.runAll hf cs

end Bridging
