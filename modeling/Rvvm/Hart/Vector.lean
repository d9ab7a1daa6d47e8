import Rvvm.Hart.Interrupts

/-!
# Where the hart loop jumps after a trap or an interrupt

`riscv32_trap` and `riscv32_handle_ip` only record an event; the PC moves when
`riscv32_run_impl` calls `riscv32_trap_jump`, after a trap in its `ev_trap` branch and after an
interrupt right behind `riscv32_handle_ip`. `riscv32TrapJump_pc` says where the jump goes:
`tvec & ~3`, plus `cause << 2` whenever bit 0 of `tvec` is set.

An interrupt's cause carries bit 31, which the shift drops, so interrupt `i` lands `4 * i` past
the base (`interrupt_jump_pc`). The jump does not tell a synchronous trap from an interrupt, and
a trap lands `4 * cause` past the base as well (`trap_jump_pc`); `vectored_trap_offset` is a
machine-level trap in vectored mode that misses the base, and `software_interrupt_vectored` an
interrupt that lands where the vector table has it.
-/

namespace Rvvm.Hart

/-- The jump of `riscv32_trap_jump`, as an offset from the base. -/
theorem riscv32TrapJump_pc (s : HartState) :
    (riscv32TrapJump s).pc = (s.tvec s.privMode &&& ~~~3#32) +
      if s.tvec s.privMode &&& 1#32 ≠ 0 then s.cause s.privMode <<< 2 else 0 := by
  simp only [riscv32TrapJump]
  split_ifs <;> simp

@[simp] theorem riscv32TrapJump_privMode (s : HartState) :
    (riscv32TrapJump s).privMode = s.privMode := rfl

theorem ofNat_shiftLeft_two (n : Nat) : BitVec.ofNat 32 n <<< 2 = BitVec.ofNat 32 (4 * n) := by
  apply BitVec.eq_of_toNat_eq
  simp only [BitVec.toNat_shiftLeft, BitVec.toNat_ofNat, Nat.shiftLeft_eq, Nat.mod_mul_mod]
  rw [Nat.mul_comm]

/-- The interrupt bit of a cause falls off the top in `cause << 2`. -/
theorem interruptCause_shiftLeft (i : Nat) :
    (BitVec.ofNat 32 i ||| interruptMask) <<< 2 = BitVec.ofNat 32 (4 * i) := by
  rw [BitVec.shiftLeft_or_distrib, show interruptMask <<< 2 = 0#32 by decide, BitVec.or_zero,
    ofNat_shiftLeft_two]

/-- After `riscv32_trap`, the `ev_trap` branch of the hart loop jumps to `tvec` of the level the
trap went to, `4 * cause` past the base in vectored mode. -/
theorem trap_jump_pc (s : HartState) (cause : Nat) (tval : BitVec 32) (timerPending : Bool) :
    let p := trapTarget s cause
    (riscv32RunEvent (riscv32Trap s cause tval) timerPending).pc =
      (s.tvec p &&& ~~~3#32) + if s.tvec p &&& 1#32 ≠ 0 then BitVec.ofNat 32 (4 * cause) else 0 := by
  simp [riscv32RunEvent, riscv32Trap, riscv32TrapJump_pc, HartState.enter, ofNat_shiftLeft_two]

/-- The jump behind `riscv32_perform_interrupt` of interrupt `i` goes to `tvec & ~3` of the level
it went to, `4 * i` further on (modulo `2^32`) in vectored mode. -/
theorem riscv32PerformInterrupt_jump_pc (s : HartState) (i : Nat) :
    let p := interruptTarget s i
    (riscv32TrapJump (riscv32PerformInterrupt s i)).pc.toNat =
      ((s.tvec p &&& ~~~3#32).toNat + if s.tvec p &&& 1#32 ≠ 0 then 4 * i else 0) % 2 ^ 32 := by
  simp only [riscv32TrapJump_pc, riscv32PerformInterrupt, HartState.enter_privMode,
    HartState.enter_tvec, HartState.enter_cause, Function.update_same, interruptCause_shiftLeft]
  split_ifs
  · simp [BitVec.toNat_add]
  · rw [BitVec.toNat_add]; rfl

/-- When `riscv32_handle_ip` delivers interrupt `i`, the jump behind it goes to `tvec[p] & ~3` of
the level `p` it went to, `4 * i` further on (modulo `2^32`) in vectored mode. -/
theorem interrupt_jump_pc {s : HartState} {wfi : Bool} (h : (riscv32HandleIp s wfi).1 = true) :
    ∃ i, firstFiring s wfi 11 = some i ∧
      let p := interruptTarget s i
      (riscv32TrapJump (riscv32HandleIp s wfi).2).privMode = p ∧
      (riscv32TrapJump (riscv32HandleIp s wfi).2).pc.toNat =
        ((s.tvec p &&& ~~~3#32).toNat + if s.tvec p &&& 1#32 ≠ 0 then 4 * i else 0) % 2 ^ 32 := by
  rcases riscv32HandleIp_cases s wfi with he | ⟨i, hi, he⟩
  · rw [he] at h; cases h
  · rw [he]
    cases wfi
    · exact ⟨i, hi, rfl, riscv32PerformInterrupt_jump_pc s i⟩
    · exact ⟨i, hi, rfl,
        riscv32PerformInterrupt_jump_pc { s with pc := s.pc + 4#32, evTrap := true } i⟩

/-- The machine software interrupt, taken from user level with `mtvec = 0x101`: the hart loop
jumps to `0x10C`, three words past the base. -/
theorem software_interrupt_vectored :
    let s : HartState :=
      { HartState.init 0 with
        privMode := Priv.user, ip := bit 3, ie := bit 3,
        tvec := Function.update (HartState.init 0).tvec Priv.machine 0x101#32 }
    (riscv32HandleIp s false).1 = true ∧
      (riscv32TrapJump (riscv32HandleIp s false).2).privMode = Priv.machine ∧
      (riscv32TrapJump (riscv32HandleIp s false).2).pc = 0x10C#32 := by
  intro s
  have hfires : (riscv32HandleIp s false).1 = true := by decide
  obtain ⟨i, hi, hp, hpc⟩ := interrupt_jump_pc hfires
  obtain rfl : i = 3 := Option.some.inj (hi.symm.trans (by decide))
  exact ⟨hfires, hp.trans (by decide), BitVec.eq_of_toNat_eq (hpc.trans (by decide))⟩

/-- A machine-level trap of cause 2 with `mtvec = 0x101`: the hart loop jumps to `0x108`, not to
the base `0x100`. -/
theorem vectored_trap_offset :
    let s : HartState :=
      { HartState.init 0 with tvec := Function.update (HartState.init 0).tvec Priv.machine 0x101#32 }
    (riscv32RunEvent (riscv32Trap s 2 0) false).pc = 0x108#32 ∧
      s.tvec Priv.machine &&& ~~~3#32 = 0x100#32 := by
  intro s
  have hjump := trap_jump_pc s 2 0 false
  simp only [trapTarget_of_machine (show s.privMode = Priv.machine from rfl)] at hjump
  exact ⟨hjump.trans (by decide), by decide⟩

end Rvvm.Hart
