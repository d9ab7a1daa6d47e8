import Rvvm.Hart.State

/-!
# The privilege level a hart runs at

The two delegation loops stop at their lower bound, so a hart in machine mode stays there: a
trap taken in machine mode is delivered to machine mode, and the only interrupts
`riscv32_handle_ip` lets through in machine mode are those of level `i & 3 = 3`, which
`riscv32_perform_interrupt` delivers to machine mode too. `run_privMode_machine` is the result:
whatever traps, interrupts, loop iterations and CSR writes happen, a hart created by
`riscv32_create_vm` never leaves machine mode, and in particular never enters the reserved
hypervisor level.
-/

namespace Rvvm.Hart

/-! ## The delegation loop -/

/-- The loop does not run when it starts at or below its bound. -/
theorem delegScan_of_le (deleg : Priv → BitVec 32) (cause : Nat) {floor p : Nat}
    (h : p ≤ floor) : delegScan deleg cause floor p = p := by
  cases p with
  | zero => rfl
  | succ p => simp [delegScan, show ¬ floor < p + 1 by omega]

@[simp] theorem fin_ofNat_three : (Fin.ofNat 3 : Priv) = Priv.machine := rfl

theorem trapTarget_of_machine {s : HartState} (hs : s.privMode = Priv.machine) (cause : Nat) :
    trapTarget s cause = Priv.machine := by
  rw [trapTarget, hs, delegScan_of_le _ _ (by decide)]
  rfl

theorem interruptTarget_of_level_three (s : HartState) {i : Nat} (hi : i &&& 3 = 3) :
    interruptTarget s i = Priv.machine := by
  simp [interruptTarget, hi, delegScan_of_le]

/-! ## Interrupt delivery -/

/-- An interrupt the loop of `riscv32_handle_ip` picks is pending, enabled and allowed. -/
theorem firstFiring_spec {s : HartState} {wfi : Bool} {n i : Nat}
    (h : firstFiring s wfi n = some i) :
    s.ip &&& bit i ≠ 0 ∧ s.ie &&& bit i ≠ 0 ∧ iallow s wfi i = true ∧ 0 < i ∧ i ≤ n := by
  induction n with
  | zero => cases h
  | succ n ih =>
    unfold firstFiring at h
    split at h
    · rename_i hc
      cases h; exact ⟨hc.1, hc.2.1, hc.2.2, by omega, Nat.le_refl _⟩
    · obtain ⟨h1, h2, h3, h4, h5⟩ := ih h; exact ⟨h1, h2, h3, h4, by omega⟩

/-- In machine mode only interrupts of level 3 are allowed. -/
theorem iallow_machine {s : HartState} {wfi : Bool} {i : Nat} (hs : s.privMode = Priv.machine)
    (h : iallow s wfi i = true) : i &&& 3 = 3 := by
  have hle : i &&& 3 ≤ 3 := Nat.and_le_right
  simp only [iallow, hs, Priv.machine, Bool.or_eq_true, decide_eq_true_eq, Bool.and_eq_true] at h
  rcases h with h | ⟨h, -⟩
  · exact absurd h (by simp; omega)
  · exact h

/-- What `riscv32_handle_ip` does: nothing, or deliver the interrupt its loop picks. -/
theorem riscv32HandleIp_cases (s : HartState) (wfi : Bool) :
    riscv32HandleIp s wfi = (false, s) ∨
    ∃ i, firstFiring s wfi 11 = some i ∧ riscv32HandleIp s wfi =
      (true, riscv32PerformInterrupt
        (if wfi then { s with pc := s.pc + 4#32, evTrap := true } else s) i) := by
  unfold riscv32HandleIp
  split
  · split
    · exact .inr ⟨_, ‹_›, rfl⟩
    · exact .inl rfl
  · exact .inl rfl

theorem riscv32HandleIp_machine {s : HartState} (wfi : Bool) (hs : s.privMode = Priv.machine) :
    (riscv32HandleIp s wfi).2.privMode = Priv.machine := by
  rcases riscv32HandleIp_cases s wfi with h | ⟨i, hi, h⟩ <;> rw [h]
  · exact hs
  · exact interruptTarget_of_level_three _ (iallow_machine hs (firstFiring_spec hi).2.2.1)

/-! ## Runs -/

theorem riscv32RunEvent_machine {s : HartState} (timerPending : Bool)
    (hs : s.privMode = Priv.machine) : (riscv32RunEvent s timerPending).privMode = Priv.machine := by
  unfold riscv32RunEvent
  dsimp only
  split
  · exact hs
  · split
    · have h := riscv32HandleIp_machine false (s := HartState.fold { s with waitEvent := 1 }
        timerPending) hs
      split <;> rename_i heq <;> rw [heq] at h <;> exact h
    · exact hs

/-- No event takes a hart out of machine mode. -/
theorem step_privMode_machine {s : HartState} (e : Event) (hs : s.privMode = Priv.machine) :
    (s.step e).privMode = Priv.machine := by
  cases e with
  | trap cause tval => exact trapTarget_of_machine hs cause
  | interrupt cause => exact hs
  | handleIp wfi => exact riscv32HandleIp_machine wfi hs
  | runEvent timerPending => exact riscv32RunEvent_machine timerPending hs
  | csrWrite csr v => cases csr <;> exact hs

/-- A hart created by `riscv32_create_vm` stays in machine mode whatever events follow. -/
theorem run_privMode_machine (pc : BitVec 32) (events : List Event) :
    ((HartState.init pc).run events).privMode = Priv.machine :=
  HartState.run_induction (fun s => s.privMode = Priv.machine)
    (fun _ e hs => step_privMode_machine e hs) rfl

/-- A hart created by `riscv32_create_vm` runs at the user, supervisor or machine level, never at
the hypervisor level, whatever events follow. -/
theorem run_privMode_ne_hypervisor (pc : BitVec 32) (events : List Event) :
    ((HartState.init pc).run events).privMode ≠ Priv.hypervisor ∧
    (((HartState.init pc).run events).privMode = Priv.user ∨
      ((HartState.init pc).run events).privMode = Priv.supervisor ∨
      ((HartState.init pc).run events).privMode = Priv.machine) := by
  rw [run_privMode_machine]
  exact ⟨by decide, .inr (.inr rfl)⟩

end Rvvm.Hart
