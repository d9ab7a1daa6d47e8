import Rvvm.Registry.Lifecycle

/-!
# The CLINT wiring of creation histories

A hart sends an IPI through the CLINT region of the target hart, so `riscv32_create_vm` copies
the MMIO table of the first registered VM, adds the new hart's CLINT region to every registered
VM and then to the new one. `Globals.Wired` is the wiring this builds: every registered VM's
table holds the CLINT region of each registered hart exactly once, and a region whose cookie is a
VM is the CLINT region of a registered hart. `Grown.wired` proves it of every state that
creations on empty slots lead to. A creation on a filled slot, which the code allows, breaks it:
every registered table then keeps the CLINT region of the VM that lost its slot
(`riscv32CreateVm_takeover`), as a run of two creations on hart 0 shows
(`takeover_keeps_stale_clint`).
-/

namespace Rvvm.Registry

open Rvvm.Hart

/-! ## The loop over the slots -/

theorem foldl_addToSlot_of_not_mem {list : Nat → Option Nat} {r : Region} {j : Nat} :
    ∀ {l : List Nat} {vms : Nat → Option Vm}, (∀ i ∈ l, list i ≠ some j) →
      l.foldl (addToSlot list r) vms j = vms j
  | [], _, _ => rfl
  | i :: l, vms, hl => by
    rw [List.foldl_cons, foldl_addToSlot_of_not_mem fun i' hi' => hl i' (List.mem_cons_of_mem _ hi'),
      addToSlot_of_ne (hl i (List.mem_cons_self _ _))]

/-- The loop adds the region exactly once to the VM of a filled slot, when no other slot holds
that VM. -/
theorem addToRegistered_of_slot {list : Nat → Option Nat} {r : Region} {vms : Nat → Option Vm}
    {i j : Nat} (hinj : ∀ {i'}, list i' = some j → i' = i) (hi : list i = some j)
    (hlt : i < maxVms) :
    addToRegistered list r vms j = (vms j).map (mmioAddDevice · r) := by
  unfold addToRegistered
  have hmem : i ∈ slots := List.mem_range.mpr hlt
  have hnd : slots.Nodup := List.nodup_range _
  generalize slots = l at hmem hnd
  induction l generalizing vms with
  | nil => cases hmem
  | cons i' l ih =>
    rw [List.foldl_cons]
    by_cases hii : i' = i
    · subst hii
      rw [foldl_addToSlot_of_not_mem fun i'' hi'' h => (List.nodup_cons.mp hnd).1 (hinj h ▸ hi'')]
      simp [addToSlot, hi]
    · rw [ih ((List.mem_cons.mp hmem).resolve_left fun h => hii h.symm) hnd.of_cons,
        addToSlot_of_ne fun h => hii (hinj h)]

theorem Globals.Wf.slot_inj {st : Globals} (hst : st.Wf) {i i' j : Nat}
    (hi : st.globalVmList i = some j) (hi' : st.globalVmList i' = some j) : i' = i := by
  obtain ⟨-, v, hv, hid⟩ := hst.slot hi
  obtain ⟨-, v', hv', hid'⟩ := hst.slot hi'
  rw [hv] at hv'
  cases hv'
  exact hid'.symm.trans hid

/-! ## Wired tables -/

section Wiring

variable (clintBase clintLen : BitVec 32)

/-- The wiring of one MMIO table against the registered harts of `st`. -/
def TableWired (st : Globals) (t : List Region) : Prop :=
  (∀ {hartid : BitVec 32} {j}, st.globalVmList hartid.toNat = some j →
    t.count (clintRegion clintBase clintLen hartid j) = 1) ∧
  ∀ r ∈ t, ∀ {j}, r.data = .vm j →
    ∃ hartid : BitVec 32, st.globalVmList hartid.toNat = some j ∧
      r = clintRegion clintBase clintLen hartid j

/-- Every registered VM's table is wired. -/
def Globals.Wired (st : Globals) : Prop :=
  ∀ {h id v}, st.globalVmList h = some id → st.vms id = some v →
    TableWired clintBase clintLen st v.mmio

variable {clintBase clintLen}

theorem clintRegion_data (hartid : BitVec 32) (j : Nat) :
    (clintRegion clintBase clintLen hartid j).data = .vm j := rfl

/-- Registering a fresh VM `n` on the empty slot of `hartid` keeps a wired table wired once its
CLINT region is appended. -/
theorem TableWired.append {st st' : Globals} {t : List Region} {hartid : BitVec 32} {n : Nat}
    (ht : TableWired clintBase clintLen st t) (hfree : st.globalVmList hartid.toNat = none)
    (hfresh : ∀ h, st.globalVmList h ≠ some n)
    (hlist : st'.globalVmList = Function.update st.globalVmList hartid.toNat (some n)) :
    TableWired clintBase clintLen st' (t ++ [clintRegion clintBase clintLen hartid n]) := by
  have hnot : clintRegion clintBase clintLen hartid n ∉ t := fun hm => by
    obtain ⟨h, hs, -⟩ := ht.2 _ hm (clintRegion_data hartid n)
    exact hfresh _ hs
  constructor
  · intro hartid' j hs
    rw [hlist, Function.update_apply] at hs
    rw [List.count_append, List.count_singleton']
    split_ifs at hs with hk
    · cases hs
      obtain rfl : hartid' = hartid := BitVec.eq_of_toNat_eq hk
      simp [List.count_eq_zero.mpr hnot]
    · have hne : clintRegion clintBase clintLen hartid n ≠ clintRegion clintBase clintLen hartid' j :=
        fun he => by
          have hnj := congrArg Region.data he
          simp only [clintRegion_data, Cookie.vm.injEq] at hnj
          exact hfresh _ (hnj ▸ hs)
      rw [ht.1 hs, if_neg hne]
  · intro r hr j hj
    rcases List.mem_append.mp hr with hr | hr
    · obtain ⟨hartid', hs, rfl⟩ := ht.2 r hr hj
      have hk : hartid'.toNat ≠ hartid.toNat := fun hk => by rw [hk, hfree] at hs; cases hs
      exact ⟨hartid', by rw [hlist, Function.update_apply, if_neg hk, hs], rfl⟩
    · rw [List.mem_singleton.mp hr] at hj ⊢
      cases hj
      exact ⟨hartid, by rw [hlist, Function.update_same], rfl⟩

section Creation

variable {devices : List Region}

/-- No slot is filled before `global_init` is set. -/
theorem Globals.Wf.slot_of_not_init {st : Globals} (hst : st.Wf) (hinit : st.globalInit = false)
    {h id : Nat} : st.globalVmList h ≠ some id := fun hs => by
  simpa [hinit] using hst.initialised (hst.isSome_of_slot hs)

/-- Registering the fresh VM `id` on the empty slot of `hartid`, with its CLINT region appended
to its table, wires every registered table, provided its table was wired and every other
registered table is a wired one with that region appended. -/
theorem registerVm_wired {st st1 : Globals} {id : Nat} {v : Vm} {hartid : BitVec 32}
    (hlist : st1.globalVmList = st.globalVmList) (hfree : st.globalVmList hartid.toNat = none)
    (hfresh : ∀ h, st.globalVmList h ≠ some id) (hv : TableWired clintBase clintLen st v.mmio)
    (hothers : ∀ {h j u}, st.globalVmList h = some j → j ≠ id → st1.vms j = some u →
      ∃ t, TableWired clintBase clintLen st t ∧ u.mmio = t ++ [clintRegion clintBase clintLen hartid id]) :
    (registerVm st1 id (mmioAddDevice v (clintRegion clintBase clintLen hartid id)) hartid).Wired
      clintBase clintLen := by
  have hlist' : (registerVm st1 id (mmioAddDevice v (clintRegion clintBase clintLen hartid id))
      hartid).globalVmList = Function.update st.globalVmList hartid.toNat (some id) := by
    rw [registerVm, hlist]
  intro h j u hs hu
  rw [hlist', Function.update_apply] at hs
  simp only [registerVm, Function.update_apply] at hu
  split_ifs at hs
  · cases hs
    rw [if_pos rfl] at hu
    cases hu
    exact hv.append hfree hfresh hlist'
  · have hne : j ≠ id := fun he => hfresh h (he ▸ hs)
    rw [if_neg hne] at hu
    obtain ⟨t, ht, heq⟩ := hothers hs hne hu
    rw [heq]
    exact ht.append hfree hfresh hlist'

/-- A creation on an empty slot keeps every registered table wired, provided no device region
has a VM as its cookie. -/
theorem riscv32CreateVm_wired (hdev : ∀ r ∈ devices, ∀ j, r.data ≠ .vm j) {st st' : Globals}
    {hartid : BitVec 32} {ramOk : Bool} {res : Option Nat} (hst : st.Wf)
    (hw : st.Wired clintBase clintLen) (hfree : st.globalVmList hartid.toNat = none)
    (h : riscv32CreateVm clintBase clintLen devices st hartid ramOk = .ok (res, st')) :
    st'.Wired clintBase clintLen := by
  have hfresh : ∀ h, st.globalVmList h ≠ some st.nextVm := fun h hs =>
    (hst.allocated (hst.isSome_of_slot hs)).ne rfl
  unfold riscv32CreateVm finishCreate at h
  split at h
  · cases h; intro _ _ _ hs hv; exact hw hs hv
  dsimp only at h
  split at h
  · rename_i hinit
    split at h
    · cases h
      intro _ _ _ hs hv
      exact registerVm_wired rfl hfree hfresh
        ⟨fun hs => absurd hs (hst.slot_of_not_init hinit), fun r hr j hj => absurd hj (hdev r hr j)⟩
        (fun hs => absurd hs (hst.slot_of_not_init hinit)) hs hv
    · cases h; intro _ _ _ hs hv; exact hw hs hv
  split at h
  · cases h
  split at h
  · cases h
  rename_i pid hpid _ parent hparent
  cases h
  obtain ⟨i, -, hi⟩ := List.exists_of_findSome?_eq_some hpid
  intro _ _ _ hs' hv'
  refine registerVm_wired (by rfl) hfree hfresh ?_ (fun hs _ hu => ?_) hs' hv'
  · exact (hw hi hparent : TableWired clintBase clintLen st parent.mmio)
  dsimp only at hu
  rw [addToRegistered_of_slot (fun h' => hst.slot_inj hs h') hs (hst.slot hs).1] at hu
  obtain ⟨u0, hu0, rfl⟩ := Option.map_eq_some'.mp hu
  exact ⟨_, hw hs hu0, rfl⟩

end Creation

variable (clintBase clintLen) (devices : List Region)

/-- The states creations alone lead to, each on a hartid whose slot is empty. -/
inductive Grown : Globals → Prop
  | init : Grown .init
  | create {st st' : Globals} {hartid : BitVec 32} {ramOk : Bool} {res : Option Nat} :
      Grown st → st.globalVmList hartid.toNat = none →
      riscv32CreateVm clintBase clintLen devices st hartid ramOk = .ok (res, st') → Grown st'

variable {clintBase clintLen devices}

theorem Grown.reachable {st : Globals} (h : Grown clintBase clintLen devices st) :
    Reachable clintBase clintLen devices st := by
  induction h with
  | init => exact .init
  | @create st st' hartid ramOk res _ _ hc ih =>
    exact ih.step (show Globals.step clintBase clintLen devices st (.create hartid ramOk) = .ok st'
      by simp [Globals.step, hc])

/-- Every state that creations on empty slots lead to is wired. -/
theorem Grown.wired (hdev : ∀ r ∈ devices, ∀ j, r.data ≠ .vm j) {st : Globals}
    (h : Grown clintBase clintLen devices st) : st.Wired clintBase clintLen := by
  induction h with
  | init => intro _ _ _ hs; cases hs
  | create hg hfree hc ih => exact riscv32CreateVm_wired hdev hg.reachable.wf ih hfree hc

/-- After any creations on empty slots, each registered VM's table holds the CLINT region of every
registered hart exactly once, with that hart's VM as cookie, and every region whose cookie is a
VM is the CLINT region of a registered hart. -/
theorem grown_clint_wiring (hdev : ∀ r ∈ devices, ∀ j, r.data ≠ .vm j) {st : Globals}
    (hg : Grown clintBase clintLen devices st) {h id : Nat} {v : Vm}
    (hs : st.globalVmList h = some id) (hv : st.vms id = some v) :
    (∀ {hartid : BitVec 32} {j}, st.globalVmList hartid.toNat = some j →
      v.mmio.count (clintRegion clintBase clintLen hartid j) = 1) ∧
    ∀ r ∈ v.mmio, ∀ {j}, r.data = .vm j →
      ∃ hartid : BitVec 32, st.globalVmList hartid.toNat = some j ∧
        r = clintRegion clintBase clintLen hartid j :=
  hg.wired hdev hs hv

set_option maxRecDepth 2000 in
theorem clint_wiring_two_harts :
    ∃ st v, Globals.run 0x2000000#32 0x10000#32 [] .init [.create 0 true, .create 1 true] = .ok st ∧
      st.globalVmList 0 = some 0 ∧ st.vms 0 = some v ∧
      (∀ {hartid : BitVec 32} {j}, st.globalVmList hartid.toNat = some j →
        v.mmio.count (clintRegion 0x2000000#32 0x10000#32 hartid j) = 1) ∧
      ∀ r ∈ v.mmio, ∀ {j}, r.data = .vm j →
        ∃ hartid : BitVec 32, st.globalVmList hartid.toNat = some j ∧
          r = clintRegion 0x2000000#32 0x10000#32 hartid j := by
  obtain ⟨st1, h1⟩ :
      ∃ st1, riscv32CreateVm 0x2000000#32 0x10000#32 [] .init 0 true = .ok (some 0, st1) :=
    ⟨_, rfl⟩
  obtain ⟨st, h2⟩ :
      ∃ st, riscv32CreateVm 0x2000000#32 0x10000#32 [] st1 1 true = .ok (some 1, st) := by
    cases h1; exact ⟨_, rfl⟩
  have hrun : Globals.run 0x2000000#32 0x10000#32 [] .init [.create 0 true, .create 1 true] =
      .ok st := by
    cases h1; cases h2; rfl
  have hg : Grown 0x2000000#32 0x10000#32 [] st :=
    .create (.create .init rfl h1) (by cases h1; rfl) h2
  have hs0 : st.globalVmList 0 = some 0 := by cases h1; cases h2; rfl
  obtain ⟨v, hv⟩ : ∃ v, st.vms 0 = some v := by cases h1; cases h2; exact ⟨_, rfl⟩
  exact ⟨st, v, hrun, hs0, hv, grown_clint_wiring (by simp) hg hs0 hv⟩

/-! ## A slot taken over -/

/-- A wired table holds the CLINT region of every registered hart. -/
theorem TableWired.mem {st : Globals} {t : List Region} (ht : TableWired clintBase clintLen st t)
    {hartid : BitVec 32} {j : Nat} (hs : st.globalVmList hartid.toNat = some j) :
    clintRegion clintBase clintLen hartid j ∈ t :=
  List.count_pos_iff.mp (by rw [ht.1 hs]; exact Nat.one_pos)

/-- A creation on the filled slot of `hartid`, from a wired registry, gives the slot to the new VM
while the VM `id` it held stays live in no slot, and every table registered afterwards keeps the
CLINT region of `id`. -/
theorem riscv32CreateVm_takeover {st st' : Globals} (hst : st.Wf)
    (hw : st.Wired clintBase clintLen) {hartid : BitVec 32} {id : Nat}
    (hs : st.globalVmList hartid.toNat = some id) {ramOk : Bool} {res : Option Nat}
    (h : riscv32CreateVm clintBase clintLen devices st hartid ramOk = .ok (res, st')) :
    (st'.vms id).isSome ∧ (∀ h', st'.globalVmList h' ≠ some id) ∧
      ∀ {h' j u}, st'.globalVmList h' = some j → st'.vms j = some u →
        clintRegion clintBase clintLen hartid id ∈ u.mmio := by
  have hlt := (hst.slot hs).1
  have hlive := hst.isSome_of_slot hs
  have hne : id ≠ st.nextVm := (hst.allocated hlive).ne
  have hfresh : ∀ {h' j}, st.globalVmList h' = some j → j ≠ st.nextVm := fun hs' =>
    (hst.allocated (hst.isSome_of_slot hs')).ne
  unfold riscv32CreateVm finishCreate at h
  rw [if_neg (not_le.mpr hlt)] at h
  dsimp only at h
  rw [if_neg (by simp [hst.initialised hlive])] at h
  split at h
  · cases h
  split at h
  · cases h
  rename_i pid hpid _ parent hparent
  obtain ⟨i, -, hi⟩ := List.exists_of_findSome?_eq_some hpid
  cases h
  refine ⟨?_, fun h' hs' => ?_, fun {h' j u} hs' hu => ?_⟩
  · simp only [registerVm, Function.update_apply, if_neg hne, addToRegistered_isSome]
    exact hlive
  · simp only [registerVm, Function.update_apply] at hs'
    split_ifs at hs' with hk
    · exact hne (Option.some.inj hs').symm
    · exact hk (hst.slot_inj hs hs')
  · rw [registerVm] at hs' hu
    dsimp only at hs' hu
    rw [Function.update_apply] at hs' hu
    split_ifs at hs' with hk
    · cases hs'
      rw [if_pos rfl] at hu
      cases hu
      exact List.mem_append_left _ ((hw hi hparent).mem hs)
    · rw [if_neg (hfresh hs'), addToRegistered_of_slot (fun h'' => hst.slot_inj hs' h'') hs'
        (hst.slot hs').1] at hu
      obtain ⟨u0, hu0, rfl⟩ := Option.map_eq_some'.mp hu
      exact List.mem_append_left _ ((hw hs' hu0).mem hs)

set_option maxRecDepth 2000 in
/-- Two creations on hart 0, with the CLINT at `0x2000000` and `0x10000` bytes per hart and no
devices: the table of VM 1, now in slot 0, keeps the CLINT region whose cookie is VM 0, which is
live but in no slot. -/
theorem takeover_keeps_stale_clint :
    ∃ st v, Globals.run 0x2000000#32 0x10000#32 [] .init [.create 0 true, .create 0 true] =
        .ok st ∧
      registered st = [0] ∧ st.globalVmList 0 = some 1 ∧ st.vms 1 = some v ∧ (st.vms 0).isSome ∧
      clintRegion 0x2000000#32 0x10000#32 0 0 ∈ v.mmio := by
  obtain ⟨st1, h1⟩ :
      ∃ st1, riscv32CreateVm 0x2000000#32 0x10000#32 [] .init 0 true = .ok (some 0, st1) :=
    ⟨_, rfl⟩
  obtain ⟨st, h2⟩ :
      ∃ st, riscv32CreateVm 0x2000000#32 0x10000#32 [] st1 0 true = .ok (some 1, st) := by
    cases h1; exact ⟨_, rfl⟩
  have hg : Grown 0x2000000#32 0x10000#32 [] st1 := .create .init rfl h1
  have hs : st1.globalVmList (0 : BitVec 32).toNat = some 0 := by cases h1; rfl
  obtain ⟨hlive, -, hstale⟩ := riscv32CreateVm_takeover hg.reachable.wf (hg.wired (by simp)) hs h2
  have hslot : st.globalVmList 0 = some 1 := by cases h1; cases h2; rfl
  obtain ⟨v, hv⟩ : ∃ v, st.vms 1 = some v := by cases h1; cases h2; exact ⟨_, rfl⟩
  refine ⟨st, v, by cases h1; cases h2; rfl, by cases h1; cases h2; rfl, hslot, hv, hlive,
    hstale hslot hv⟩

end Wiring

end Rvvm.Registry
