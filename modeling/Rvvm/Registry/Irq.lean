import Rvvm.Registry.Lifecycle

/-!
# The MTIMER scan of `global_irq_handler`

Every 10 ms the IRQ thread takes `global_lock` and walks `global_vm_list`, posting
`INTERRUPT_MTIMER` to the VM of each filled slot; it leaves the loop early once it has posted
`global_vm_count` VMs. `irqScan` is that loop. `postedVms` says what a pass is for: every VM in a
filled slot gets the post, and no other VM changes. `irqScan_eq` shows that the loop computes it
whenever the count it stops at leaves room for every filled slot ahead, which `register_vm` and
`deregister_vm` keep (`Globals.Wf.count`); so in every reachable state one pass reaches every
registered VM (`reachable_irq_posts_every_vm`), and a second pass right after it changes nothing
(`reachable_irq_pass_idem`).
-/

namespace Rvvm.Registry

open Rvvm.Hart

/-- What the MTIMER post of `global_irq_handler` does to a VM. -/
def irqPostVm (v : Vm) : Vm :=
  { v with hart := globalIrqPost v.hart }

/-- The scan loop of `global_irq_handler` over the slots `is`, with `vmcnt` VMs posted so far
and `count` the value of `global_vm_count` it compares with: post to the VM of each filled slot,
and `break` once `++vmcnt == global_vm_count`. -/
def irqScan (list : Nat → Option Nat) (count : Nat) :
    List Nat → Nat → (Nat → Option Vm) → Except Fault (Nat → Option Vm)
  | [], _, vms => .ok vms
  | i :: is, vmcnt, vms =>
    match list i with
    | none => irqScan list count is vmcnt vms
    | some id =>
      match vms id with
      | none => .error .useAfterFree
      | some v =>
        let vms := Function.update vms id (some (irqPostVm v))
        if vmcnt + 1 = count then .ok vms else irqScan list count is (vmcnt + 1) vms

/-- One pass of the loop of `global_irq_handler` under `global_lock`; the `sleep_ms` before the
scan and the `fb_update` after it touch nothing modelled. -/
def globalIrqHandler (st : Globals) : Except Fault Globals :=
  (fun vms => { st with vms := vms }) <$> irqScan st.globalVmList st.globalVmCount slots 0 st.vms

/-- What a pass over the slots `is` is for: the VM of each filled slot gets the MTIMER post, and
every other VM stays as it is. -/
def postedVms (list : Nat → Option Nat) (is : List Nat) (vms : Nat → Option Vm) :
    Nat → Option Vm :=
  fun id => if ∃ h ∈ is, list h = some id then (vms id).map irqPostVm else vms id

/-! ## The abstract pass -/

theorem globalIrqPost_idem (s : HartState) : globalIrqPost (globalIrqPost s) = globalIrqPost s := by
  simp [globalIrqPost, BitVec.or_assoc]

theorem irqPostVm_idem (v : Vm) : irqPostVm (irqPostVm v) = irqPostVm v := by
  rw [irqPostVm, irqPostVm, globalIrqPost_idem]

section Posted

variable {list : Nat → Option Nat} {is : List Nat} {vms : Nat → Option Vm}

/-- A pass over slots that are all empty changes nothing. -/
theorem postedVms_of_empty (hempty : ∀ h ∈ is, list h = none) : postedVms list is vms = vms := by
  funext id
  rw [postedVms, if_neg]
  rintro ⟨h, hh, hid⟩
  simp [hempty h hh] at hid

theorem postedVms_cons_none {i : Nat} (hi : list i = none) :
    postedVms list (i :: is) vms = postedVms list is vms := by
  funext id
  simp [postedVms, hi]

/-- Posting to the VM of the first slot, then to the rest, is posting to all of them: a VM posted
twice ends as a VM posted once. -/
theorem postedVms_cons_some {i id : Nat} {v : Vm} (hi : list i = some id) (hv : vms id = some v) :
    postedVms list (i :: is) vms = postedVms list is (Function.update vms id (some (irqPostVm v))) := by
  funext j
  by_cases hj : j = id
  · subst hj
    simp [postedVms, hi, hv, irqPostVm_idem]
  · have hij : list i ≠ some j := by rw [hi]; exact fun h => hj (Option.some.inj h).symm
    simp [postedVms, hij, Function.update_apply, hj]

end Posted

/-! ## The loop -/

/-- The loop computes the abstract pass when every filled slot ahead holds a live VM and the
count it stops at leaves room for all of them. -/
theorem irqScan_eq {list : Nat → Option Nat} {count : Nat} {is : List Nat} {vmcnt : Nat}
    {vms : Nat → Option Vm} (hlive : ∀ h ∈ is, ∀ id, list h = some id → (vms id).isSome)
    (hcount : vmcnt + (is.filter fun h => (list h).isSome).length ≤ count) :
    irqScan list count is vmcnt vms = .ok (postedVms list is vms) := by
  induction is generalizing vmcnt vms with
  | nil => rw [postedVms_of_empty fun _ h => absurd h (List.not_mem_nil _)]; rfl
  | cons i is ih =>
    have hrest : ∀ h ∈ is, ∀ id, list h = some id → (vms id).isSome :=
      fun h hh => hlive h (List.mem_cons_of_mem _ hh)
    rcases hi : list i with _ | id
    · simp only [irqScan, hi, postedVms_cons_none hi]
      exact ih hrest (by simpa [hi] using hcount)
    · obtain ⟨v, hv⟩ := Option.isSome_iff_exists.mp (hlive i (List.mem_cons_self _ _) id hi)
      have hc : vmcnt + 1 + (is.filter fun h => (list h).isSome).length ≤ count := by
        simp [List.filter_cons, hi] at hcount; omega
      simp only [irqScan, hi, hv, postedVms_cons_some hi hv]
      split_ifs with hlast
      · have hempty : ∀ h ∈ is, list h = none := by
          have hnil := List.eq_nil_of_length_eq_zero
            (show (is.filter fun h => (list h).isSome).length = 0 by omega)
          simpa [List.filter_eq_nil_iff] using hnil
        rw [postedVms_of_empty hempty]
      · refine ih (fun h hh j hj => ?_) (by omega)
        rw [Function.update_apply]
        split_ifs
        · rfl
        · exact hrest h hh j hj

/-- In every state reachable by `riscv32_create_vm` and `riscv32_destroy_vm` calls, one pass of
`global_irq_handler` reaches every VM in `global_vm_list`: it sets the MTIMER bit of its
`ev_int_mask`, sets `ev_int` and stores 0 to `wait_event`, and it changes no other VM. -/
theorem reachable_irq_posts_every_vm {clintBase clintLen : BitVec 32} {devices : List Region}
    {st : Globals} (hr : Reachable clintBase clintLen devices st) :
    ∃ vms, globalIrqHandler st = .ok { st with vms := vms } ∧
      (∀ h id, st.globalVmList h = some id → ∃ v, st.vms id = some v ∧
        vms id = some { v with hart := { v.hart with
          evIntMask := v.hart.evIntMask ||| bit interruptMtimer, evInt := true, waitEvent := 0 } }) ∧
      ∀ id, (∀ h, st.globalVmList h ≠ some id) → vms id = st.vms id := by
  have hst := hr.wf
  have hscan : irqScan st.globalVmList st.globalVmCount slots 0 st.vms =
      .ok (postedVms st.globalVmList slots st.vms) :=
    irqScan_eq (fun _ _ _ hs => hst.isSome_of_slot hs) (by simpa using hst.count)
  refine ⟨_, by rw [globalIrqHandler, hscan]; rfl, fun h id hs => ?_, fun id hno => ?_⟩
  · obtain ⟨hh, v, hv, -⟩ := hst.slot hs
    have hmem : ∃ h ∈ slots, st.globalVmList h = some id :=
      ⟨h, List.mem_range.mpr hh, hs⟩
    exact ⟨v, hv, by rw [postedVms, if_pos hmem, hv]; rfl⟩
  · rw [postedVms, if_neg]
    rintro ⟨h, -, hs⟩
    exact hno h hs

set_option maxRecDepth 2000 in
theorem irq_posts_two_harts :
    ∃ st, Globals.run 0x2000000#32 0x10000#32 [] .init [.create 0 true, .create 1 true] = .ok st ∧
      ∃ vms, globalIrqHandler st = .ok { st with vms := vms } ∧
        (∀ h id, st.globalVmList h = some id → ∃ v, st.vms id = some v ∧
          vms id = some { v with hart := { v.hart with
            evIntMask := v.hart.evIntMask ||| bit interruptMtimer, evInt := true,
            waitEvent := 0 } }) ∧
        ∀ id, (∀ h, st.globalVmList h ≠ some id) → vms id = st.vms id := by
  obtain ⟨st, hrun⟩ : ∃ st, Globals.run 0x2000000#32 0x10000#32 [] .init
      [.create 0 true, .create 1 true] = .ok st := ⟨_, rfl⟩
  exact ⟨st, hrun, reachable_irq_posts_every_vm (Reachable.init.run hrun)⟩

/-! ## The pass repeated

The IRQ thread repeats its pass every 10 ms. A post sets a bit, a flag and `wait_event`, so in
every reachable state a second pass right after the first changes nothing: posts between two
iterations of a hart's loop are not counted. -/

/-- Posting twice is posting once. -/
theorem postedVms_idem (list : Nat → Option Nat) (is : List Nat) (vms : Nat → Option Vm) :
    postedVms list is (postedVms list is vms) = postedVms list is vms := by
  funext id
  unfold postedVms
  split_ifs <;> simp [Option.map_map, Function.comp_def, irqPostVm_idem]

/-- In every reachable state, a pass of `global_irq_handler` right after another changes
nothing. -/
theorem reachable_irq_pass_idem {clintBase clintLen : BitVec 32} {devices : List Region}
    {st st1 : Globals} (hr : Reachable clintBase clintLen devices st)
    (h : globalIrqHandler st = .ok st1) : globalIrqHandler st1 = .ok st1 := by
  have hst := hr.wf
  have hscan : irqScan st.globalVmList st.globalVmCount slots 0 st.vms =
      .ok (postedVms st.globalVmList slots st.vms) :=
    irqScan_eq (fun _ _ _ hs => hst.isSome_of_slot hs) (by simpa using hst.count)
  rw [globalIrqHandler, hscan] at h
  cases h
  have hlive : ∀ h ∈ slots, ∀ id, st.globalVmList h = some id →
      (postedVms st.globalVmList slots st.vms id).isSome := fun _ _ _ hs => by
    unfold postedVms
    split_ifs <;> simp [hst.isSome_of_slot hs]
  rw [globalIrqHandler]
  dsimp only
  rw [irqScan_eq hlive (by simpa using hst.count), postedVms_idem]
  rfl

set_option maxRecDepth 2000 in
theorem irq_pass_idem_two_harts :
    ∃ st st1, Globals.run 0x2000000#32 0x10000#32 [] .init [.create 0 true, .create 1 true] =
        .ok st ∧ globalIrqHandler st = .ok st1 ∧ globalIrqHandler st1 = .ok st1 := by
  obtain ⟨st, hrun⟩ : ∃ st, Globals.run 0x2000000#32 0x10000#32 [] .init
      [.create 0 true, .create 1 true] = .ok st := ⟨_, rfl⟩
  have hr := Reachable.init.run hrun
  have hst := hr.wf
  have h1 :
      globalIrqHandler st = .ok { st with vms := postedVms st.globalVmList slots st.vms } := by
    rw [globalIrqHandler, irqScan_eq (fun _ _ _ hs => hst.isSome_of_slot hs)
      (by simpa using hst.count)]
    rfl
  exact ⟨st, _, hrun, h1, reachable_irq_pass_idem hr h1⟩

end Rvvm.Registry
