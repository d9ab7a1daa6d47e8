import Rvvm.Hart.Interrupts
import Rvvm.Hart.Privilege

/-!
# Machine-mode handlers run with interrupts masked

In machine mode `riscv32_handle_ip` lets through only interrupts of level 3, and outside WFI
only while `MIE`, bit 3 of `status`, is set (`iallow_machineMasked`). `riscv32_trap` and
`riscv32_perform_interrupt` clear `MIE` when they deliver to machine mode. `MachineMasked` is
machine mode with `MIE` clear: harts start so (`machineMasked_init`) and every trap to machine
mode leads there (`riscv32Trap_machineMasked`). Every event except a guest write of `status`
keeps it (`step_machineMasked`), so along any run that does not write `status`, no check of
`riscv32_handle_ip` outside WFI takes an interrupt (`machineMasked_run`): a machine-mode trap
handler is not interrupted until it sets `MIE` again. Inside WFI a pending, enabled interrupt of
level 3 is taken whatever `MIE` says.
-/

namespace Rvvm.Hart

/-- Machine mode with `MIE` clear. -/
def HartState.MachineMasked (s : HartState) : Prop :=
  s.privMode = Priv.machine ∧ s.status.getLsbD 3 = false

/-- The mask test `status & (1 << n)` reads bit `n`. -/
theorem and_bit_ne_zero (v : BitVec 32) {n : Nat} (hn : n < 32) :
    v &&& bit n ≠ 0 ↔ v.getLsbD n = true := by
  have hbit : bit n = BitVec.twoPow 32 n := rfl
  have hne : BitVec.twoPow 32 n ≠ 0#32 := fun h => by
    simpa [hn] using congrArg (BitVec.getLsbD · n) h
  rw [hbit, BitVec.and_twoPow]
  split <;> simp_all

section Masked

variable {s : HartState}

theorem machineMasked_init (pc : BitVec 32) : (HartState.init pc).MachineMasked :=
  ⟨rfl, BitVec.getLsbD_zero⟩

/-- Entering machine mode clears `MIE`. -/
theorem enter_machineMasked (s : HartState) (cause tval : BitVec 32) :
    (s.enter Priv.machine cause tval).MachineMasked :=
  ⟨rfl, by simp [getLsbD_pushStatus_machine]⟩

theorem riscv32Trap_machineMasked {cause : Nat} (tval : BitVec 32)
    (htarget : trapTarget s cause = Priv.machine) : (riscv32Trap s cause tval).MachineMasked := by
  have h := enter_machineMasked s (BitVec.ofNat 32 cause) tval
  rw [← htarget] at h
  exact h

/-- Outside WFI a masked hart allows no interrupt. -/
theorem iallow_machineMasked (hs : s.MachineMasked) (i : Nat) : iallow s false i = false := by
  have hle : i &&& 3 ≤ 3 := Nat.and_le_right
  rw [Bool.eq_false_iff, Ne, iallow_eq_true, hs.1, show (Priv.machine : Nat) = 3 from rfl]
  rintro (hlt | ⟨heq, hen | hwfi⟩)
  · omega
  · rw [heq, and_bit_ne_zero _ (by omega)] at hen
    exact Bool.false_ne_true (hs.2.symm.trans hen)
  · exact Bool.false_ne_true hwfi

theorem riscv32HandleIp_machineMasked (hs : s.MachineMasked) :
    riscv32HandleIp s false = (false, s) := by
  rcases riscv32HandleIp_cases s false with h | ⟨i, hi, -⟩
  · exact h
  · exact absurd (firstFiring_spec hi).2.2.1 (by rw [iallow_machineMasked hs]; decide)

/-- Every event except a guest write of `status` keeps a hart masked. -/
theorem step_machineMasked (hs : s.MachineMasked) {e : Event}
    (he : ∀ v, e ≠ .csrWrite .status v) : (s.step e).MachineMasked := by
  cases e with
  | trap cause tval => exact riscv32Trap_machineMasked tval (trapTarget_of_machine hs.1 cause)
  | interrupt cause => exact hs
  | handleIp wfi =>
    rcases riscv32HandleIp_cases s wfi with h | ⟨i, hi, h⟩ <;> rw [HartState.step, h]
    · exact hs
    · rw [riscv32PerformInterrupt,
        interruptTarget_of_level_three _ (iallow_machine hs.1 (firstFiring_spec hi).2.2.1)]
      exact enter_machineMasked _ _ _
  | runEvent timerPending =>
    have hfold : (HartState.fold { s with waitEvent := 1 } timerPending).MachineMasked := hs
    rw [HartState.step, riscv32RunEvent]
    dsimp only
    split
    · exact hs
    · split
      · rw [riscv32HandleIp_machineMasked hfold]
        exact hfold
      · exact hs
  | csrWrite csr v =>
    cases csr with
    | status => exact absurd rfl (he v)
    | _ => exact hs

/-- Along any run of events that does not write `status`, a masked hart stays in machine mode
with `MIE` clear, and `riscv32_handle_ip` outside WFI takes no interrupt at any point of it. -/
theorem machineMasked_run (hs : s.MachineMasked) {events : List Event}
    (hno : ∀ v, Event.csrWrite .status v ∉ events) :
    (s.run events).MachineMasked ∧ riscv32HandleIp (s.run events) false = (false, s.run events) := by
  induction events generalizing s with
  | nil => exact ⟨hs, riscv32HandleIp_machineMasked hs⟩
  | cons e events ih =>
    rw [HartState.run_cons]
    exact ih (step_machineMasked hs fun v he => hno v (he ▸ List.mem_cons_self _ _))
      fun v hv => hno v (List.mem_cons_of_mem _ hv)

end Masked

/-- A created hart that takes an illegal-instruction trap and then an MTIMER post, followed by an
iteration of its loop with the timer pending, takes no interrupt. -/
theorem masked_after_trap_and_timer :
    (HartState.init 0x80000000#32).MachineMasked ∧
    (∀ v, Event.csrWrite .status v ∉ [.trap 2 0, .interrupt interruptMtimer, .runEvent true]) ∧
    (((HartState.init 0x80000000#32).run
        [.trap 2 0, .interrupt interruptMtimer, .runEvent true]).MachineMasked ∧
      riscv32HandleIp ((HartState.init 0x80000000#32).run
          [.trap 2 0, .interrupt interruptMtimer, .runEvent true]) false =
        (false, (HartState.init 0x80000000#32).run
          [.trap 2 0, .interrupt interruptMtimer, .runEvent true])) :=
  ⟨machineMasked_init _, by simp,
    machineMasked_run (machineMasked_init _) (by simp)⟩

end Rvvm.Hart
