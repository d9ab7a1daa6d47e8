import Rvvm.Registry.Model
import Mathlib.Data.List.Nodup

/-!
# Runs of the hart registry

`Globals.Wf` is what `register_vm` and `deregister_vm` keep over every sequence of calls
(`Reachable.wf`): each filled slot `h` of `global_vm_list` holds a live VM whose `hartid` is `h`,
and `global_vm_count` is at least the number of filled slots. The only fault a creation can
meet is the missing parent, exactly when every hart has been destroyed (`createVm_faults_iff`).

The invariant is no stronger than that. `deregister_vm` never decrements the count, and
`register_vm` fills a slot whatever it holds; the theorems at the end run the histories where
this shows: a slot taken over, an IRQ thread that outlives the harts, shared memory released by
the first destroy, and a creation after the last destroy.
-/

namespace Rvvm.Registry

open Rvvm.Hart

/-- The filled slots of `global_vm_list`. -/
def registered (st : Globals) : List Nat :=
  slots.filter fun h => (st.globalVmList h).isSome

theorem mem_registered {st : Globals} {h : Nat} :
    h ∈ registered st ↔ h < maxVms ∧ (st.globalVmList h).isSome := by
  simp [registered, slots]

theorem length_registered_le_of_subset {st : Globals} {l : List Nat} (hsub : registered st ⊆ l) :
    (registered st).length ≤ l.length :=
  (List.subperm_of_subset ((List.nodup_range maxVms).filter _) hsub).length_le

theorem registered_eq_nil {st : Globals} :
    registered st = [] ↔ firstRegistered st.globalVmList = none := by
  simp [registered, firstRegistered, List.filter_eq_nil_iff, List.findSome?_eq_none_iff]

/-- What the registry keeps over every run. -/
structure Globals.Wf (st : Globals) : Prop where
  /-- A filled slot `h` is below `MAX_VMS` and holds a live VM whose `hartid` is `h`. -/
  slot : ∀ {h id}, st.globalVmList h = some id →
    h < maxVms ∧ ∃ v, st.vms id = some v ∧ v.hart.hartid.toNat = h
  /-- Every live VM came from an earlier `calloc`. -/
  allocated : ∀ {id}, (st.vms id).isSome → id < st.nextVm
  /-- `global_vm_count` counts at least the filled slots. -/
  count : (registered st).length ≤ st.globalVmCount
  /-- Every live VM was counted, so `deregister_vm` never sees a count of zero. -/
  counted : ∀ {id}, (st.vms id).isSome → 0 < st.globalVmCount
  /-- A live VM exists only once `global_init` is set. -/
  initialised : ∀ {id}, (st.vms id).isSome → st.globalInit = true
  /-- `thread_kill` never ran. -/
  noKill : st.threadKills = 0 ∧ st.globalIrqThread ≠ .killed

theorem Globals.wf_init : Globals.init.Wf where
  slot := by simp [Globals.init]
  allocated := by simp [Globals.init]
  count := by simp [registered, Globals.init]
  counted := by simp [Globals.init]
  initialised := by simp [Globals.init]
  noKill := ⟨rfl, nofun⟩

/-- The VM in a filled slot is live. -/
theorem Globals.Wf.isSome_of_slot {st : Globals} (hst : st.Wf) {h id : Nat}
    (hs : st.globalVmList h = some id) : (st.vms id).isSome := by
  obtain ⟨-, v, hv, -⟩ := hst.slot hs
  rw [hv]; rfl

/-! ## Creation -/

theorem addToSlot_of_ne {list : Nat → Option Nat} {r : Region} {vms : Nat → Option Vm} {i j : Nat}
    (hi : list i ≠ some j) : addToSlot list r vms i j = vms j := by
  unfold addToSlot
  rcases hli : list i with _ | id
  · rfl
  · dsimp only
    rw [Function.update_apply, if_neg (by rintro rfl; exact hi hli)]

/-- Adding a region to the registered VMs changes no VM's hart, and frees or allocates none. -/
theorem addToRegistered_hart (list : Nat → Option Nat) (r : Region) (vms : Nat → Option Vm)
    (j : Nat) : (addToRegistered list r vms j).map (·.hart) = (vms j).map (·.hart) := by
  unfold addToRegistered
  generalize slots = l
  induction l generalizing vms with
  | nil => rfl
  | cons i l ih =>
    rw [List.foldl_cons, ih]
    by_cases hi : list i = some j
    · simp only [addToSlot, hi, Function.update_same, Option.map_map]
      rfl
    · rw [addToSlot_of_ne hi]

theorem addToRegistered_isSome (list : Nat → Option Nat) (r : Region) (vms : Nat → Option Vm)
    (j : Nat) : (addToRegistered list r vms j).isSome = (vms j).isSome := by
  simpa using congrArg Option.isSome (addToRegistered_hart list r vms j)

/-- The invariant reads the VMs only through their harts and which of them are live: a state with
the same slots, count and harts, whose `calloc` has gone no further back, keeps it. -/
theorem Globals.Wf.congr {st st1 : Globals} (hst : st.Wf)
    (hlist : st1.globalVmList = st.globalVmList) (hcount : st1.globalVmCount = st.globalVmCount)
    (hvms : ∀ j, (st1.vms j).map (·.hart) = (st.vms j).map (·.hart))
    (hnext : st.nextVm ≤ st1.nextVm) (hinit : st.globalInit = true → st1.globalInit = true)
    (hkill : st1.threadKills = 0 ∧ st1.globalIrqThread ≠ .killed) : st1.Wf := by
  have hsome : ∀ j, (st1.vms j).isSome = (st.vms j).isSome := fun j => by
    simpa using congrArg Option.isSome (hvms j)
  refine ⟨fun {h id} hs => ?_, fun hj => ?_, ?_, fun hj => ?_, fun hj => ?_, hkill⟩
  · obtain ⟨hlt, v0, hv0, hid⟩ := hst.slot (hlist ▸ hs)
    obtain ⟨v1, hv1, hhart⟩ := Option.map_eq_some'.mp ((hvms id).trans (by rw [hv0]; rfl))
    exact ⟨hlt, v1, hv1, hhart ▸ hid⟩
  · exact Nat.lt_of_lt_of_le (hst.allocated (hsome _ ▸ hj)) hnext
  · simpa only [registered, hlist, hcount] using hst.count
  · exact hcount ▸ hst.counted (hsome _ ▸ hj)
  · exact hinit (hst.initialised (hsome _ ▸ hj))

/-- `register_vm` of a VM that an earlier `calloc` named and that is not live yet, for a hartid
below `MAX_VMS`, keeps the invariant once `global_init` is set. -/
theorem Globals.Wf.registerVm_fresh {st : Globals} (hst : st.Wf) {id : Nat} {v : Vm}
    {hartid : BitVec 32} (hlt : hartid.toNat < maxVms) (hid : id < st.nextVm)
    (hdead : st.vms id = none) (hinit : st.globalInit = true) :
    (registerVm st id v hartid).Wf where
  slot {h j} hs := by
    simp only [registerVm, Function.update_apply] at hs ⊢
    split_ifs at hs with hh
    · cases hs
      exact ⟨hh ▸ hlt, _, if_pos rfl, hh.symm⟩
    · obtain ⟨hlt', v0, hv0, hj⟩ := hst.slot hs
      have hne : j ≠ id := by rintro rfl; rw [hdead] at hv0; cases hv0
      exact ⟨hlt', v0, by rw [if_neg hne, hv0], hj⟩
  allocated {j} hj := by
    simp only [registerVm, Function.update_apply] at hj
    split_ifs at hj with hji
    · exact hji ▸ hid
    · exact hst.allocated hj
  count := by
    have hsub : registered (registerVm st id v hartid) ⊆ hartid.toNat :: registered st := by
      intro h hh
      rw [mem_registered] at hh
      by_cases hk : h = hartid.toNat
      · exact hk ▸ List.mem_cons_self _ _
      · simp only [registerVm, Function.update_apply, if_neg hk] at hh
        exact List.mem_cons_of_mem _ (mem_registered.mpr hh)
    have := length_registered_le_of_subset hsub
    have := hst.count
    simp only [List.length_cons, registerVm] at *
    omega
  counted _ := Nat.succ_pos _
  initialised _ := hinit
  noKill := hst.noKill

/-- `register_vm` of the freshly allocated VM keeps the invariant, when nothing before it in the
call touched a slot, the count or a hart. -/
theorem registerVm_wf {st st1 : Globals} {v : Vm} {hartid : BitVec 32} (hst : st.Wf)
    (hlt : hartid.toNat < maxVms) (hlist : st1.globalVmList = st.globalVmList)
    (hcount : st1.globalVmCount = st.globalVmCount)
    (hvms : ∀ j, (st1.vms j).map (·.hart) = (st.vms j).map (·.hart))
    (hnext : st1.nextVm = st.nextVm + 1) (hinit : st1.globalInit = true)
    (hkill : st1.threadKills = 0 ∧ st1.globalIrqThread ≠ .killed) :
    (registerVm st1 st.nextVm v hartid).Wf := by
  have hdead : st1.vms st.nextVm = none := by
    have hfresh : st.vms st.nextVm = none :=
      Option.not_isSome_iff_eq_none.mp fun h => (hst.allocated h).false
    simpa [hfresh] using hvms st.nextVm
  exact (hst.congr hlist hcount hvms (by omega) (fun _ => hinit) hkill).registerVm_fresh hlt
    (by omega) hdead hinit

section Calls

variable {clintBase clintLen : BitVec 32} {devices : List Region}

theorem riscv32CreateVm_wf {st st' : Globals} {hartid : BitVec 32} {ramOk : Bool}
    {r : Option Nat} (hst : st.Wf)
    (h : riscv32CreateVm clintBase clintLen devices st hartid ramOk = .ok (r, st')) : st'.Wf := by
  unfold riscv32CreateVm finishCreate at h
  split at h
  · cases h; exact hst
  · dsimp only at h
    split at h
    · split at h
      · cases h; exact registerVm_wf hst (by omega) rfl rfl (fun _ => rfl) rfl rfl
          ⟨hst.noKill.1, nofun⟩
      · cases h
        exact ⟨hst.slot, fun hj => Nat.lt_succ_of_lt (hst.allocated hj), hst.count, hst.counted,
          hst.initialised, hst.noKill⟩
    · split at h
      · cases h
      · split at h
        · cases h
        · cases h
          refine registerVm_wf hst (by omega) rfl rfl (fun j => ?_) rfl
            (by simpa using ‹¬st.globalInit = false›) hst.noKill
          dsimp only
          exact addToRegistered_hart _ _ _ j

/-- In a state that keeps the invariant, `riscv32_create_vm(hartid)` faults exactly when it takes
the already-initialised branch and every slot is empty, and then it dereferences `NULL`. -/
theorem createVm_faults_iff {st : Globals} {hartid : BitVec 32} {ramOk : Bool} {e : Fault}
    (hst : st.Wf) :
    riscv32CreateVm clintBase clintLen devices st hartid ramOk = .error e ↔
      hartid.toNat < maxVms ∧ st.globalInit = true ∧ registered st = [] ∧ e = .nullParent := by
  rw [registered_eq_nil]
  unfold riscv32CreateVm finishCreate
  split
  · simp; omega
  · dsimp only
    split
    · split <;> simp_all
    · split
      · rename_i hlt hinit _ hnone
        replace hinit : st.globalInit = true := by simpa using hinit
        simp only [Except.error.injEq, hnone, hinit, and_true, true_and]
        exact ⟨fun he => ⟨by omega, he.symm⟩, fun ⟨_, he⟩ => he.symm⟩
      · rename_i pid hpid
        obtain ⟨i, -, hi⟩ := List.exists_of_findSome?_eq_some hpid
        obtain ⟨-, v, hv, -⟩ := hst.slot hi
        simp [hv, hpid]

/-- In a state that keeps the invariant, `riscv32_create_vm` on a filled slot succeeds: the new VM
takes the slot over and the VM it replaces stays live. -/
theorem createVm_takes_over {st : Globals} {hartid : BitVec 32} {id : Nat} (ramOk : Bool)
    (hst : st.Wf) (hs : st.globalVmList hartid.toNat = some id) :
    ∃ st', riscv32CreateVm clintBase clintLen devices st hartid ramOk = .ok (some st.nextVm, st') ∧
      st'.globalVmList hartid.toNat = some st.nextVm ∧ st.nextVm ≠ id ∧ (st'.vms id).isSome := by
  have hlt := (hst.slot hs).1
  have hlive := hst.isSome_of_slot hs
  obtain ⟨pid, hpid⟩ : ∃ pid, firstRegistered st.globalVmList = some pid :=
    Option.isSome_iff_exists.mp
      (List.findSome?_isSome_iff.mpr ⟨_, List.mem_range.mpr hlt, by rw [hs]; rfl⟩)
  obtain ⟨-, parent, hparent, -⟩ := hst.slot (List.exists_of_findSome?_eq_some hpid).choose_spec.2
  have hne : id ≠ st.nextVm := (hst.allocated hlive).ne
  let r := clintRegion clintBase clintLen hartid st.nextVm
  have hcreate : riscv32CreateVm clintBase clintLen devices st hartid ramOk =
      .ok (finishCreate clintBase clintLen
        { st with nextVm := st.nextVm + 1, vms := addToRegistered st.globalVmList r st.vms }
        st.nextVm ⟨HartState.init 0x80000000#32, parent.mem, parent.mmio⟩ hartid) := by
    simp only [riscv32CreateVm, if_neg (not_le.mpr hlt), hst.initialised hlive, hpid, hparent]
    rfl
  refine ⟨_, hcreate, Function.update_same _ _ _, hne.symm, ?_⟩
  simp only [finishCreate, registerVm, Function.update_apply, if_neg hne, addToRegistered_isSome]
  exact hlive

end Calls

/-! ## Destruction -/

/-- With a positive count, `deregister_vm` only empties the slot. -/
theorem deregisterVm_of_pos {st : Globals} {v : Vm} (h : 0 < st.globalVmCount) :
    deregisterVm st v =
      .ok { st with globalVmList := Function.update st.globalVmList v.hart.hartid.toNat none } := by
  simp [deregisterVm, Nat.pos_iff_ne_zero.mp h]

/-- A slot or VM that is set after an `update` to `NULL` was set before, and is not the one
updated. -/
theorem isSome_update_none {α : Type} {f : Nat → Option α} {k j : Nat}
    (h : (Function.update f k none j).isSome) : j ≠ k ∧ (f j).isSome := by
  rw [Function.update_apply] at h
  split_ifs at h with hjk
  · simp at h
  · exact ⟨hjk, h⟩

theorem riscv32DestroyVm_wf {st st' : Globals} {id : Nat} (hst : st.Wf)
    (h : riscv32DestroyVm st id = .ok st') : st'.Wf := by
  unfold riscv32DestroyVm at h
  split at h
  · cases h
  · rename_i v hv
    rw [deregisterVm_of_pos (hst.counted (show (st.vms id).isSome by rw [hv]; rfl)),
      Except.ok_bind] at h
    split at h
    · cases h
    · cases h
      refine ⟨fun {h id'} hs => ?_, fun hj => hst.allocated (isSome_update_none hj).2,
        (length_registered_le_of_subset fun h hh => ?_).trans hst.count,
        fun hj => hst.counted (isSome_update_none hj).2,
        fun hj => hst.initialised (isSome_update_none hj).2, hst.noKill⟩
      · replace hs : Function.update st.globalVmList v.hart.hartid.toNat none h = some id' := hs
        have hk := (isSome_update_none (by rw [hs]; rfl)).1
        rw [Function.update_apply, if_neg hk] at hs
        obtain ⟨hlt, v0, hv0, hid⟩ := hst.slot hs
        have hne : id' ≠ id := by
          rintro rfl
          exact hk (by rw [hv] at hv0; cases hv0; exact hid.symm)
        exact ⟨hlt, v0, show Function.update st.vms id none id' = _ by rw [Function.update_apply, if_neg hne, hv0], hid⟩
      · rw [mem_registered] at hh ⊢
        exact ⟨hh.1, (isSome_update_none hh.2).2⟩

/-- `riscv32_destroy_vm` frees the VM and touches no other VM: the regions of other tables whose
cookie is the freed VM stay. -/
theorem riscv32DestroyVm_vms {st st' : Globals} {id j : Nat} (h : riscv32DestroyVm st id = .ok st')
    (hj : j ≠ id) : st'.vms j = st.vms j ∧ st'.vms id = none := by
  unfold riscv32DestroyVm deregisterVm threadKill at h
  split at h
  · cases h
  · obtain ⟨st2, hd, h⟩ := Except.bind_eq_ok.mp h
    replace hd : st2.vms = st.vms := by
      dsimp only at hd
      split at hd
      · split at hd <;> cases hd <;> rfl
      · cases hd; rfl
    split at h
    · cases h
    · cases h
      simp [Function.update_apply, hj, hd]

/-! ## Runs -/

section Runs

variable (clintBase clintLen : BitVec 32) (devices : List Region)

/-- The states some sequence of calls leads to from the start of the process. -/
inductive Reachable : Globals → Prop
  | init : Reachable .init
  | step {st st' : Globals} {c : Call} :
      Reachable st → Globals.step clintBase clintLen devices st c = .ok st' → Reachable st'

variable {clintBase clintLen devices}

theorem Globals.step_wf {st st' : Globals} {c : Call} (hst : st.Wf)
    (h : Globals.step clintBase clintLen devices st c = .ok st') : st'.Wf := by
  cases c with
  | create hartid ramOk =>
    obtain ⟨⟨r, st''⟩, hc, rfl⟩ := Except.map_eq_ok.mp h
    exact riscv32CreateVm_wf hst hc
  | destroy id => exact riscv32DestroyVm_wf hst h

theorem Reachable.wf {st : Globals} (h : Reachable clintBase clintLen devices st) : st.Wf := by
  induction h with
  | init => exact Globals.wf_init
  | step _ hs ih => exact Globals.step_wf ih hs

theorem Reachable.run {st st' : Globals} {calls : List Call}
    (h : Reachable clintBase clintLen devices st)
    (hr : Globals.run clintBase clintLen devices st calls = .ok st') :
    Reachable clintBase clintLen devices st' := by
  induction calls generalizing st with
  | nil => cases hr; exact h
  | cons c calls ih =>
    obtain ⟨st1, h1, hr⟩ := Except.bind_eq_ok.mp hr
    exact ih (h.step h1) hr

theorem Globals.run_append (st : Globals) (xs ys : List Call) :
    Globals.run clintBase clintLen devices st (xs ++ ys) =
      Globals.run clintBase clintLen devices st xs >>= fun st =>
        Globals.run clintBase clintLen devices st ys := by
  induction xs generalizing st with
  | nil => rfl
  | cons c xs ih =>
    rw [List.cons_append, Globals.run, Globals.run]
    cases Globals.step clintBase clintLen devices st c
    · rfl
    · exact ih _

/-- No history calls `thread_kill`: every live VM was counted and `global_vm_count` never drops,
so the check of `deregister_vm` never passes. -/
theorem Reachable.irq_thread_never_killed {st : Globals}
    (h : Reachable clintBase clintLen devices st) :
    st.threadKills = 0 ∧ st.globalIrqThread ≠ .killed :=
  h.wf.noKill

/-- In every reachable state each filled slot `h` holds a live VM whose `hartid` is `h`,
`global_vm_count` is at least the number of filled slots, and `riscv32_create_vm` on a filled
slot succeeds, giving the slot to the new VM while the VM it replaces stays live. -/
theorem reachable_registry_slots {st : Globals} (hr : Reachable clintBase clintLen devices st) :
    (∀ {h id}, st.globalVmList h = some id →
      h < maxVms ∧ ∃ v, st.vms id = some v ∧ v.hart.hartid.toNat = h) ∧
    (registered st).length ≤ st.globalVmCount ∧
    ∀ {hartid : BitVec 32} {id : Nat} (ramOk : Bool), st.globalVmList hartid.toNat = some id →
      ∃ st', riscv32CreateVm clintBase clintLen devices st hartid ramOk =
          .ok (some st.nextVm, st') ∧
        st'.globalVmList hartid.toNat = some st.nextVm ∧ st.nextVm ≠ id ∧ (st'.vms id).isSome :=
  ⟨hr.wf.slot, hr.wf.count, fun ramOk hs => createVm_takes_over ramOk hr.wf hs⟩

set_option maxRecDepth 2000 in
theorem registry_slots_two_harts :
    ∃ st, Globals.run 0x2000000#32 0x10000#32 [] .init [.create 0 true, .create 1 true] = .ok st ∧
      (∀ {h id}, st.globalVmList h = some id →
        h < maxVms ∧ ∃ v, st.vms id = some v ∧ v.hart.hartid.toNat = h) ∧
      (registered st).length ≤ st.globalVmCount ∧
      ∀ {hartid : BitVec 32} {id : Nat} (ramOk : Bool), st.globalVmList hartid.toNat = some id →
        ∃ st', riscv32CreateVm 0x2000000#32 0x10000#32 [] st hartid ramOk =
            .ok (some st.nextVm, st') ∧
          st'.globalVmList hartid.toNat = some st.nextVm ∧ st.nextVm ≠ id ∧ (st'.vms id).isSome := by
  obtain ⟨st, hrun⟩ : ∃ st, Globals.run 0x2000000#32 0x10000#32 [] .init
      [.create 0 true, .create 1 true] = .ok st := ⟨_, rfl⟩
  exact ⟨st, hrun, reachable_registry_slots (Reachable.init.run hrun)⟩

end Runs

/-! ## Histories the invariant does not exclude -/

section Histories

variable (clintBase clintLen : BitVec 32) (devices : List Region)

set_option maxRecDepth 2000 in
/-- Two creations on hart 0, with the CLINT at `0x2000000` and `0x10000` bytes per hart and no
devices: the second takes the slot over, leaving two live VMs with `hartid` 0, one filled slot
and a count of 2. -/
theorem create_takes_slot_over :
    ∃ st, Globals.run 0x2000000#32 0x10000#32 [] .init [.create 0 true, .create 0 true] = .ok st ∧
      (st.vms 0).map (·.hart.hartid) = some 0 ∧ (st.vms 1).map (·.hart.hartid) = some 0 ∧
      st.globalVmCount = 2 ∧ registered st = [0] :=
  ⟨_, rfl, rfl, rfl, rfl, rfl⟩

set_option maxRecDepth 2000 in
/-- Destroying the only hart empties the registry and leaves the IRQ thread running; with two
harts, destroying the first releases the memory block the second still uses. -/
theorem shared_resources_outlive_harts :
    (∃ st, Globals.run clintBase clintLen devices .init [.create 0 true, .destroy 0] = .ok st ∧
      registered st = [] ∧ st.threadKills = 0 ∧ st.globalIrqThread = .running) ∧
    (∃ st, Globals.run clintBase clintLen devices .init
        [.create 0 true, .create 1 true, .destroy 0] = .ok st ∧
      registered st = [1] ∧ ∃ v, st.vms 1 = some v ∧ v.mem ∈ st.released) :=
  ⟨⟨_, rfl, rfl, rfl, rfl⟩, ⟨_, rfl, rfl, _, rfl, List.mem_singleton_self _⟩⟩

set_option maxRecDepth 2000 in
/-- Creating a hart after the only one was destroyed dereferences the missing parent. -/
theorem create_after_last_destroy :
    Globals.run clintBase clintLen devices .init [.create 0 true, .destroy 0, .create 1 true] =
      .error .nullParent := by
  obtain ⟨st, hrun⟩ : ∃ st,
      Globals.run clintBase clintLen devices .init [.create 0 true, .destroy 0] = .ok st := ⟨_, rfl⟩
  have hfault : riscv32CreateVm clintBase clintLen devices st 1 true = .error .nullParent :=
    (createVm_faults_iff (Reachable.init.run hrun).wf).mpr
      ⟨by decide, by cases hrun; rfl, by cases hrun; rfl, rfl⟩
  rw [show [Call.create 0 true, .destroy 0, .create 1 true] =
    [.create 0 true, .destroy 0] ++ [.create 1 true] from rfl, Globals.run_append, hrun]
  simp only [Except.ok_bind, Globals.run, Globals.step]
  rw [hfault]
  rfl

end Histories

end Rvvm.Registry
