import Rvvm.Basic

/-!
# The hart state and the trap engine of `riscv32.c`

A hart is the part of `riscv32_vm_state_t` that the trap engine and the event loop read and
write: the program counter, the machine-level CSRs, the privilege level and the event flags.
Delegation in `riscv32_trap` and `riscv32_perform_interrupt` is one loop, `delegScan`, run on
`edeleg` for traps and on `ideleg` for interrupts with different lower bounds. One iteration of
the hart loop `riscv32_run_impl` is `riscv32RunEvent`; `Event` lists everything that can happen
to a hart between two such iterations, guest CSR writes included.
-/

namespace Rvvm.Hart

/-- A privilege level: `PRIVILEGE_USER`, `PRIVILEGE_SUPERVISOR`, `PRIVILEGE_HYPERVISOR` or
`PRIVILEGE_MACHINE`. `priv_mode` is a `uint8_t`, but every store to it is `PRIVILEGE_MACHINE` or
the result of a delegation loop that starts at `PRIVILEGE_MACHINE` and counts down. -/
abbrev Priv := Fin 4

namespace Priv
def user : Priv := 0
def supervisor : Priv := 1
def hypervisor : Priv := 2
def machine : Priv := 3
end Priv

/-- `INTERRUPT_MTIMER`. -/
def interruptMtimer : Nat := 7

/-- `INTERRUPT_MASK`, the top bit of `cause` for interrupts. -/
def interruptMask : BitVec 32 := 0x80000000#32

/-- The bit `1 << n` of a 32-bit mask. -/
def bit (n : Nat) : BitVec 32 := 1#32 <<< n

/-- The fields of `riscv32_vm_state_t` the trap engine and the event loop use. -/
structure HartState where
  /-- `registers[REGISTER_PC]` as `riscv32i_read_register_u` returns it. -/
  pc : BitVec 32
  status : BitVec 32
  edeleg : Priv → BitVec 32
  ideleg : Priv → BitVec 32
  ie : BitVec 32
  tvec : Priv → BitVec 32
  epc : Priv → BitVec 32
  cause : Priv → BitVec 32
  tval : Priv → BitVec 32
  ip : BitVec 32
  hartid : BitVec 32
  privMode : Priv
  waitEvent : Int
  evTrap : Bool
  evInt : Bool
  evIntMask : BitVec 32

/-- The hart `riscv32_create_vm` sets up: zeroed by `calloc`, in machine mode, with every trap
and interrupt delegated past the hypervisor level, and the PC at the start of RAM. -/
def HartState.init (pc : BitVec 32) : HartState where
  pc := pc
  status := 0
  edeleg := Function.update (fun _ => 0) Priv.hypervisor 0xFFFFFFFF#32
  ideleg := Function.update (fun _ => 0) Priv.hypervisor 0xFFFFFFFF#32
  ie := 0
  tvec := fun _ => 0
  epc := fun _ => 0
  cause := fun _ => 0
  tval := fun _ => 0
  ip := 0
  hartid := 0
  privMode := Priv.machine
  waitEvent := 0
  evTrap := false
  evInt := false
  evIntMask := 0

/-! ## Delegation -/

/-- The delegation loop `for (; priv > floor; --priv) if ((deleg[priv] & (1 << cause)) == 0) break;`
from level `priv`: the level where it stops. -/
def delegScan (deleg : Priv → BitVec 32) (cause floor : Nat) : Nat → Nat
  | 0 => 0
  | p + 1 =>
    if floor < p + 1 ∧ deleg (Fin.ofNat (p + 1)) &&& bit cause ≠ 0 then
      delegScan deleg cause floor p
    else p + 1

/-- Save the current level in `xPP`, `xIE` in `xPIE`, and clear `xIE` of the target level `p`,
as `riscv32_trap` and `riscv32_perform_interrupt` both do. -/
def pushStatus (status : BitVec 32) (p priv : Priv) : BitVec 32 :=
  if p = Priv.machine then
    let status := bitReplace status 11 2 (BitVec.ofNat 32 priv)
    let status := bitReplace status 7 1 (bitCut status 3 1)
    status &&& 0xFFFFFFF7#32
  else if p = Priv.supervisor then
    let status := bitReplace status 8 1 (BitVec.ofNat 32 priv)
    let status := bitReplace status 5 1 (bitCut status 1 1)
    status &&& 0xFFFFFFFD#32
  else status

/-- Enter level `p` with `cause` and `tval`, saving the PC: the common tail of `riscv32_trap` and
`riscv32_perform_interrupt`. -/
def HartState.enter (s : HartState) (p : Priv) (cause tval : BitVec 32) : HartState :=
  { s with epc := Function.update s.epc p s.pc, cause := Function.update s.cause p cause,
           tval := Function.update s.tval p tval, status := pushStatus s.status p s.privMode,
           privMode := p, waitEvent := 0 }

/-- The level `riscv32_trap` delivers `cause` to: the scan of `edeleg` from machine level down to
the current level. -/
def trapTarget (s : HartState) (cause : Nat) : Priv :=
  Fin.ofNat (delegScan s.edeleg cause s.privMode 3)

/-- The level `riscv32_perform_interrupt` delivers interrupt `cause` to: the scan of `ideleg`
from machine level down to the interrupt's own level `cause & 3`. -/
def interruptTarget (s : HartState) (cause : Nat) : Priv :=
  Fin.ofNat (delegScan s.ideleg cause (cause &&& 3) 3)

/-- `riscv32_trap`. -/
def riscv32Trap (s : HartState) (cause : Nat) (tval : BitVec 32) : HartState :=
  { s.enter (trapTarget s cause) (BitVec.ofNat 32 cause) tval with evTrap := true }

/-- `riscv32_perform_interrupt`. -/
def riscv32PerformInterrupt (s : HartState) (cause : Nat) : HartState :=
  s.enter (interruptTarget s cause) (BitVec.ofNat 32 cause ||| interruptMask) 0

/-! ## Interrupts -/

/-- The test of `riscv32_handle_ip` for a pending interrupt `i`: its level `i & 3` is above the
current one, or equal to it with that level's global enable set in `status` or inside WFI. -/
def iallow (s : HartState) (wfi : Bool) (i : Nat) : Bool :=
  decide (s.privMode.val < i &&& 3) ||
    (decide (i &&& 3 = s.privMode.val) && (decide (s.status &&& bit (i &&& 3) ≠ 0) || wfi))

/-- The loop `for (i = n; i > 0; --i)` of `riscv32_handle_ip`: the first interrupt, from `n`
down, that is pending, enabled and allowed. -/
def firstFiring (s : HartState) (wfi : Bool) : Nat → Option Nat
  | 0 => none
  | i + 1 =>
    if s.ip &&& bit (i + 1) ≠ 0 ∧ s.ie &&& bit (i + 1) ≠ 0 ∧ iallow s wfi (i + 1) = true then
      some (i + 1)
    else firstFiring s wfi i

/-- `riscv32_handle_ip`: deliver the first firing interrupt from 11 down; inside WFI the saved PC
is that of the next instruction and `ev_trap` is raised. -/
def riscv32HandleIp (s : HartState) (wfi : Bool) : Bool × HartState :=
  if s.ip ≠ 0 then
    match firstFiring s wfi 11 with
    | some i =>
      let s := if wfi then { s with pc := s.pc + 4#32, evTrap := true } else s
      (true, riscv32PerformInterrupt s i)
    | none => (false, s)
  else (false, s)

/-- `riscv32_interrupt`, called from other threads: queue `cause` and wake the hart. -/
def riscv32Interrupt (s : HartState) (cause : Nat) : HartState :=
  { s with evIntMask := s.evIntMask ||| bit cause, evInt := true, waitEvent := 0 }

/-- The body of the scan loop of `global_irq_handler` for one hart: queue the machine timer
interrupt and wake the hart. -/
def globalIrqPost (s : HartState) : HartState :=
  { s with evIntMask := s.evIntMask ||| bit interruptMtimer, evInt := true, waitEvent := 0 }

/-! ## The hart loop -/

/-- `riscv32_trap_jump`: jump to `tvec` of the current level, offset by `cause << 2` in vectored
mode. -/
def riscv32TrapJump (s : HartState) : HartState :=
  let pc := s.tvec s.privMode &&& ~~~3#32
  let pc := if s.tvec s.privMode &&& 1#32 ≠ 0 then pc + (s.cause s.privMode <<< 2) else pc
  { s with pc := pc }

/-- The fold of `ev_int_mask` into `ip` in `riscv32_run_impl`, with the machine timer bit dropped
when `rvtimer_pending` says the timer is not pending. -/
def foldIp (ip evIntMask : BitVec 32) (timerPending : Bool) : BitVec 32 :=
  let ip := ip ||| evIntMask
  if ip &&& bit interruptMtimer ≠ 0 ∧ timerPending = false then ip &&& ~~~bit interruptMtimer
  else ip

/-- The `ev_int` branch of `riscv32_run_impl` before `riscv32_handle_ip`: fold the queued
interrupts into `ip` and clear `ev_int`. -/
def HartState.fold (s : HartState) (timerPending : Bool) : HartState :=
  { s with ip := foldIp s.ip s.evIntMask timerPending, evInt := false }

/-- One iteration of `riscv32_run_impl` after `riscv32_run_till_event` returns; `timerPending`
is what `rvtimer_pending` answers. -/
def riscv32RunEvent (s : HartState) (timerPending : Bool) : HartState :=
  let s := { s with waitEvent := 1 }
  if s.evTrap then riscv32TrapJump { s with evTrap := false }
  else if s.evInt then
    match riscv32HandleIp (s.fold timerPending) false with
    | (true, s) => riscv32TrapJump s
    | (false, s) => s
  else s

/-! ## Events -/

/-- A CSR a guest instruction may write. -/
inductive Csr where
  | status
  | ie
  | ip
  | tvec (p : Priv)
  | edeleg (p : Priv)
  | ideleg (p : Priv)

/-- A guest write of `v` to a CSR. -/
def csrWrite (s : HartState) : Csr → BitVec 32 → HartState
  | .status, v => { s with status := v }
  | .ie, v => { s with ie := v }
  | .ip, v => { s with ip := v }
  | .tvec p, v => { s with tvec := Function.update s.tvec p v }
  | .edeleg p, v => { s with edeleg := Function.update s.edeleg p v }
  | .ideleg p, v => { s with ideleg := Function.update s.ideleg p v }

/-- What can happen to a hart: a trap, an interrupt raised by another thread, the interrupt check
of `riscv32_handle_ip`, an iteration of the hart loop, or a guest CSR write. Each is taken whole:
a post of `riscv32_interrupt` is one event here, which suits one posting thread whose post does
not overlap a fold; `Rvvm.Hart.Posting` takes posts and folds apart into their loads and stores. -/
inductive Event where
  | trap (cause : Nat) (tval : BitVec 32)
  | interrupt (cause : Nat)
  | handleIp (wfi : Bool)
  | runEvent (timerPending : Bool)
  | csrWrite (csr : Csr) (v : BitVec 32)

/-- One event. -/
def HartState.step (s : HartState) : Event → HartState
  | .trap cause tval => riscv32Trap s cause tval
  | .interrupt cause => riscv32Interrupt s cause
  | .handleIp wfi => (riscv32HandleIp s wfi).2
  | .runEvent timerPending => riscv32RunEvent s timerPending
  | .csrWrite csr v => csrWrite s csr v

/-- A run of events, one after another. -/
def HartState.run (s : HartState) (events : List Event) : HartState :=
  events.foldl HartState.step s

@[simp] theorem HartState.run_nil (s : HartState) : s.run [] = s := rfl

@[simp] theorem HartState.run_cons (s : HartState) (e : Event) (events : List Event) :
    s.run (e :: events) = (s.step e).run events := rfl

/-- A property that every event keeps holds after every run. -/
theorem HartState.run_induction (P : HartState → Prop) (hstep : ∀ s e, P s → P (s.step e))
    {s : HartState} {events : List Event} (hs : P s) : P (s.run events) := by
  induction events generalizing s with
  | nil => exact hs
  | cons e events ih => exact ih (hstep s e hs)

end Rvvm.Hart
