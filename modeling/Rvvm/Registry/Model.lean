import Rvvm.Hart.State

/-!
# The hart registry of `riscv32.c`

`riscv32_create_vm` and `riscv32_destroy_vm` maintain the process-wide state shared by all harts:
the slot array `global_vm_list`, the counter `global_vm_count`, the flag `global_init`, the IRQ
thread, and, through the VMs, one physical memory block and the MMIO tables. VMs are heap
objects named by the order of their allocation; a slot holds the name of a VM, and a CLINT
region's cookie names the VM it belongs to. A `Globals` is that state; `Call` is a call of one
of the two functions.

`CLINT_BASE_ADDR` and `CLINT_LEN` come from `clint.h`, and the regions `devices_init` installs
from device code, neither of which is in the source: they are the parameters `clintBase`,
`clintLen` and `devices`.
-/

namespace Rvvm.Registry

open Rvvm.Hart

/-- `MAX_VMS`. -/
def maxVms : Nat := 256

/-- The handler of an MMIO region: `clint_mmio_handler`, or one a device installs. -/
inductive Handler where
  | clint
  | device (n : Nat)
  deriving DecidableEq

/-- The cookie of an MMIO region: a VM, for CLINT regions, or a device's data. -/
inductive Cookie where
  | vm (id : Nat)
  | device (n : Nat)
  deriving DecidableEq

/-- `riscv32_mmio_device_t`. -/
structure Region where
  baseAddr : BitVec 32
  endAddr : BitVec 32
  handler : Handler
  data : Cookie
  deriving DecidableEq

/-- A VM of the registry: its hart, the physical memory block `vm->mem` points to, and its
MMIO table `vm->mmio`. -/
structure Vm where
  hart : HartState
  mem : Nat
  mmio : List Region

/-- The IRQ thread handle `global_irq_thread`. -/
inductive IrqThread where
  | none
  | running
  | killed
  deriving DecidableEq

/-- What has no defined result in the registry code. -/
inductive Fault where
  /-- `parent_vm->mem` with `parent_vm == NULL`. -/
  | nullParent
  /-- A VM, memory block or thread handle used after it was freed. -/
  | useAfterFree
  deriving DecidableEq, Repr

/-- The process-wide state behind `riscv32_create_vm` and `riscv32_destroy_vm`. -/
structure Globals where
  /-- The live VMs: what each allocated and not yet freed VM holds. -/
  vms : Nat → Option Vm
  /-- `global_vm_list`: the VM in each slot below `MAX_VMS`. -/
  globalVmList : Nat → Option Nat
  globalVmCount : Nat
  globalInit : Bool
  globalIrqThread : IrqThread
  /-- How many times `thread_kill` ran. -/
  threadKills : Nat
  /-- The memory blocks `riscv32_destroy_phys_mem` released. -/
  released : List Nat
  /-- The name of the next VM `calloc` returns, and of the next memory block. -/
  nextVm : Nat
  nextMem : Nat

/-- The state before the first call. -/
def Globals.init : Globals :=
  ⟨fun _ => none, fun _ => none, 0, false, .none, 0, [], 0, 0⟩

/-- A call of `riscv32_create_vm(hartid)`, where `ramOk` says whether
`riscv32_init_phys_mem` succeeds if `devices_init` runs, or of `riscv32_destroy_vm` on a VM. -/
inductive Call where
  | create (hartid : BitVec 32) (ramOk : Bool)
  | destroy (vm : Nat)

/-- The slots a scan of `global_vm_list` visits, in order. -/
def slots : List Nat := List.range maxVms

/-- The loop of `riscv32_create_vm` that looks for a parent VM: the first non-`NULL` slot. -/
def firstRegistered (list : Nat → Option Nat) : Option Nat :=
  slots.findSome? list

section Calls

variable (clintBase clintLen : BitVec 32) (devices : List Region)

/-- The CLINT region of hart `hartid`, whose cookie is the VM `vm`. -/
def clintRegion (hartid : BitVec 32) (vm : Nat) : Region :=
  ⟨clintBase + clintLen * hartid, clintBase + clintLen * (hartid + 1), .clint, .vm vm⟩

/-- `riscv32_mmio_add_device`, which is in `riscv32_mmu.c` and not in the source: the region is
appended to the VM's table, whose registration order is its iteration order. -/
def mmioAddDevice (v : Vm) (r : Region) : Vm :=
  { v with mmio := v.mmio ++ [r] }

/-- One iteration of the loop below: add the region to the VM in slot `i`, if there is one. -/
def addToSlot (list : Nat → Option Nat) (r : Region) (vms : Nat → Option Vm) (i : Nat) :
    Nat → Option Vm :=
  match list i with
  | some id => Function.update vms id ((vms id).map (mmioAddDevice · r))
  | none => vms

/-- The loop of `riscv32_create_vm` that adds the new hart's CLINT region to every registered VM,
slot by slot. -/
def addToRegistered (list : Nat → Option Nat) (r : Region) (vms : Nat → Option Vm) :
    Nat → Option Vm :=
  slots.foldl (addToSlot list r) vms

/-- `register_vm` for a hartid below `MAX_VMS`: fill the slot, whatever it held, set the hart's
`hartid` and count the registration. -/
def registerVm (st : Globals) (id : Nat) (v : Vm) (hartid : BitVec 32) : Globals :=
  { st with vms := Function.update st.vms id (some { v with hart := { v.hart with hartid := hartid } }),
            globalVmList := Function.update st.globalVmList hartid.toNat (some id),
            globalVmCount := st.globalVmCount + 1 }

/-- The end of `riscv32_create_vm`: add the hart's own CLINT region and register it. -/
def finishCreate (st : Globals) (id : Nat) (v : Vm) (hartid : BitVec 32) :
    Option Nat × Globals :=
  (some id, registerVm st id (mmioAddDevice v (clintRegion clintBase clintLen hartid id)) hartid)

/-- `riscv32_create_vm`: the new VM's name, or `none` for `NULL`, and the registry afterwards.
The first successful call runs `devices_init`, which allocates the memory block and installs
`devices`, and starts the IRQ thread; later calls copy the memory and the MMIO table of the VM
in the first non-`NULL` slot and add the new CLINT region to every registered VM. The `calloc`
of the VM itself is taken to succeed: when it fails the call returns `NULL` before it reads or
writes any global, as if it had not been made. -/
def riscv32CreateVm (st : Globals) (hartid : BitVec 32) (ramOk : Bool) :
    Except Fault (Option Nat × Globals) :=
  if maxVms ≤ hartid.toNat then .ok (none, st)
  else
    let id := st.nextVm
    let st := { st with nextVm := id + 1 }
    let hart := HartState.init 0x80000000#32
    if st.globalInit = false then
      if ramOk then
        let v : Vm := ⟨hart, st.nextMem, devices⟩
        let st : Globals :=
          { st with nextMem := st.nextMem + 1, globalIrqThread := .running, globalInit := true }
        .ok (finishCreate clintBase clintLen st id v hartid)
      else .ok (none, st)
    else
      match firstRegistered st.globalVmList with
      | none => .error .nullParent
      | some pid =>
        match st.vms pid with
        | none => .error .useAfterFree
        | some parent =>
          let v : Vm := ⟨hart, parent.mem, parent.mmio⟩
          let r := clintRegion clintBase clintLen hartid id
          let st : Globals := { st with vms := addToRegistered st.globalVmList r st.vms }
          .ok (finishCreate clintBase clintLen st id v hartid)

/-- `thread_kill(global_irq_thread)`. -/
def threadKill (st : Globals) : Except Fault Globals :=
  match st.globalIrqThread with
  | .running => .ok { st with globalIrqThread := .killed, threadKills := st.threadKills + 1 }
  | .none => .ok { st with threadKills := st.threadKills + 1 }
  | .killed => .error .useAfterFree

/-- `deregister_vm`: empty the VM's slot, and kill the IRQ thread when `global_vm_count` is `0`;
the count itself is left as it is. -/
def deregisterVm (st : Globals) (v : Vm) : Except Fault Globals :=
  let st := { st with globalVmList := Function.update st.globalVmList v.hart.hartid.toNat none }
  if st.globalVmCount = 0 then threadKill st else .ok st

/-- `riscv32_destroy_vm`: deregister the VM, release its memory block with
`riscv32_destroy_phys_mem`, and free it. Removing the regions of its own table touches nothing
that outlives it. -/
def riscv32DestroyVm (st : Globals) (id : Nat) : Except Fault Globals :=
  match st.vms id with
  | none => .error .useAfterFree
  | some v =>
    deregisterVm st v >>= fun st =>
    if v.mem ∈ st.released then .error .useAfterFree
    else .ok { st with released := v.mem :: st.released, vms := Function.update st.vms id none }

/-- One call. -/
def Globals.step (st : Globals) : Call → Except Fault Globals
  | .create hartid ramOk => (·.2) <$> riscv32CreateVm clintBase clintLen devices st hartid ramOk
  | .destroy id => riscv32DestroyVm st id

/-- A sequence of calls from a registry, up to the first fault. -/
def Globals.run : Globals → List Call → Except Fault Globals
  | st, [] => .ok st
  | st, c :: calls => Globals.step clintBase clintLen devices st c >>= fun st =>
      Globals.run st calls

end Calls

end Rvvm.Registry
