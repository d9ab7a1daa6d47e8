import Rvvm.Registry.Wiring

/-!
# Creating harts from several threads

On an initialised registry `riscv32_create_vm` takes `global_lock` twice. The first section
copies the memory and the MMIO table of the first registered VM into the new one and adds the
new hart's CLINT region to every registered VM. After the unlock the function adds the hart's
own CLINT region to its own table, and `register_vm` takes the lock again to fill the slot.
`Sys` is any number of threads creating harts. A step (`Sys.step`) is `calloc` or one of the two
sections of one thread, so a list of steps is an interleaving.

The lock does not make a creation atomic. Between its two sections a thread's table is its own:
no broadcast reaches it, since a broadcast goes to the registered VMs only. So once a creation
has broadcast while another thread sat between its two sections, the second thread's VM never
receives that CLINT region, whatever runs afterwards (`lacks_run`). Two overlapping creations
leave a registered hart that cannot reach the other's CLINT (`overlapping_creations`), where
creations made one after another keep every table wired (`Grown.wired`).

The slots and the count fare better: the first section only adds regions, and `register_vm`
fills a slot with a VM only its own thread held, so every interleaving keeps the invariant of
calls made one at a time (`interleaved_registry_slots`). `Sys.step_cases` says once what a step
can do; both results are built on it.
-/

namespace Rvvm.Registry

open Rvvm.Hart

/-- The loop over the slots only appends the region: every region of a table after it was there
before or is the region added. -/
theorem mem_addToRegistered {list : Nat → Option Nat} {r : Region} {vms : Nat → Option Vm}
    {j : Nat} {v' : Vm} (h : addToRegistered list r vms j = some v') :
    ∃ v, vms j = some v ∧ ∀ x ∈ v'.mmio, x ∈ v.mmio ∨ x = r := by
  unfold addToRegistered at h
  generalize slots = l at h
  induction l generalizing vms with
  | nil => exact ⟨v', h, fun x hx => .inl hx⟩
  | cons i l ih =>
    obtain ⟨v1, hv1, hmem⟩ := ih h
    by_cases hi : list i = some j
    · simp only [addToSlot, hi, Function.update_same] at hv1
      obtain ⟨v, hv, rfl⟩ := Option.map_eq_some'.mp hv1
      refine ⟨v, hv, fun x hx => ?_⟩
      rcases hmem x hx with hx | hx
      · simpa [mmioAddDevice] using hx
      · exact .inr hx
    · rw [addToSlot_of_ne hi] at hv1
      exact ⟨v1, hv1, hmem⟩

namespace Concurrent

/-- Where a thread calling `riscv32_create_vm` on an initialised registry is. -/
inductive CreatePc where
  /-- Not creating. -/
  | idle
  /-- `calloc` has returned the VM `id`, for hart `hartid`; the first locked section is next. -/
  | allocated (hartid : BitVec 32) (id : Nat)
  /-- Past the first locked section, holding the new VM `v` with the memory and the table it
  copied; its own CLINT region and `register_vm` are next. -/
  | prepared (hartid : BitVec 32) (id : Nat) (v : Vm)

/-- Threads creating harts: the registry, and where each thread is. -/
structure Sys (n : Nat) where
  st : Globals
  pc : Fin n → CreatePc

/-- What one thread does next. -/
inductive Act (n : Nat) where
  /-- The `calloc` of the new VM. -/
  | alloc (t : Fin n) (hartid : BitVec 32)
  /-- The first locked section: copy the parent, add the CLINT region to the registered VMs. -/
  | broadcast (t : Fin n)
  /-- The own CLINT region, then `register_vm`. -/
  | register (t : Fin n)

variable (clintBase clintLen : BitVec 32) {n : Nat}

/-- One step, or `none` when the thread is not at a point where it takes it. A section with no
defined result (no registered parent) and the first creation, which runs unlocked, are not
steps. -/
def Sys.step (S : Sys n) : Act n → Option (Sys n)
  | .alloc t hartid =>
    match S.pc t with
    | .idle =>
      if hartid.toNat < maxVms then
        some ⟨{ S.st with nextVm := S.st.nextVm + 1 },
          Function.update S.pc t (.allocated hartid S.st.nextVm)⟩
      else none
    | _ => none
  | .broadcast t =>
    match S.pc t with
    | .allocated hartid id =>
      if S.st.globalInit then
        match firstRegistered S.st.globalVmList with
        | none => none
        | some pid =>
          match S.st.vms pid with
          | none => none
          | some parent =>
            let r := clintRegion clintBase clintLen hartid id
            let v : Vm := ⟨HartState.init 0x80000000#32, parent.mem, parent.mmio⟩
            some ⟨{ S.st with vms := addToRegistered S.st.globalVmList r S.st.vms },
              Function.update S.pc t (.prepared hartid id v)⟩
      else none
    | _ => none
  | .register t =>
    match S.pc t with
    | .prepared hartid id v =>
      some ⟨(finishCreate clintBase clintLen S.st id v hartid).2, Function.update S.pc t .idle⟩
    | _ => none

/-- An interleaving: steps one after another, up to the first one that cannot be taken. -/
def Sys.run (S : Sys n) : List (Act n) → Option (Sys n)
  | [] => some S
  | a :: acts => Sys.step clintBase clintLen S a >>= fun S => Sys.run S acts

variable {clintBase clintLen}

/-- What a step can do: the `calloc` of an idle thread, for a hartid below `MAX_VMS`; the first
section of an allocated thread, on an initialised registry with a live parent; or the second
section of a prepared thread. -/
theorem Sys.step_cases {S S' : Sys n} {a : Act n}
    (hs : Sys.step clintBase clintLen S a = some S') :
    (∃ t hartid, S.pc t = .idle ∧ hartid.toNat < maxVms ∧
      S' = ⟨{ S.st with nextVm := S.st.nextVm + 1 },
        Function.update S.pc t (.allocated hartid S.st.nextVm)⟩) ∨
    (∃ t hartid j parent, S.pc t = .allocated hartid j ∧ S.st.globalInit = true ∧
      (∃ pid, firstRegistered S.st.globalVmList = some pid ∧ S.st.vms pid = some parent) ∧
      S' = ⟨{ S.st with
          vms := addToRegistered S.st.globalVmList (clintRegion clintBase clintLen hartid j)
            S.st.vms },
        Function.update S.pc t
          (.prepared hartid j ⟨HartState.init 0x80000000#32, parent.mem, parent.mmio⟩)⟩) ∨
    (∃ t hartid j v, S.pc t = .prepared hartid j v ∧
      S' = ⟨(finishCreate clintBase clintLen S.st j v hartid).2,
        Function.update S.pc t .idle⟩) := by
  cases a with
  | alloc t hartid =>
    simp only [Sys.step] at hs
    split at hs
    · split at hs
      · cases hs; exact .inl ⟨t, hartid, ‹_›, ‹_›, rfl⟩
      · cases hs
    · cases hs
  | broadcast t =>
    simp only [Sys.step] at hs
    split at hs
    · split at hs
      · split at hs
        · cases hs
        · split at hs
          · cases hs
          · cases hs; exact .inr (.inl ⟨t, _, _, _, ‹_›, ‹_›, ⟨_, ‹_›, ‹_›⟩, rfl⟩)
      · cases hs
    · cases hs
  | register t =>
    simp only [Sys.step] at hs
    split at hs
    · cases hs; exact .inr (.inr ⟨t, _, _, _, ‹_›, rfl⟩)
    · cases hs

/-- The registry after hart 0 is created, with two threads about to create harts. -/
def afterFirstHart : Sys 2 :=
  match Globals.run 0x2000000#32 0x10000#32 [] .init [.create 0 true] with
  | .ok st => ⟨st, fun _ => .idle⟩
  | .error _ => ⟨.init, fun _ => .idle⟩

/-! ## A table between the two sections -/

/-- VM `id`'s table, wherever it is, holds no region whose cookie is VM `id'`, and the creation
of VM `id'` has broadcast: no thread is about to broadcast `id` or `id'`, and `calloc` returns
neither again. -/
structure Sys.Lacks (id id' : Nat) (S : Sys n) : Prop where
  ne : id ≠ id'
  prepared : ∀ t h v, S.pc t = .prepared h id v → ∀ r ∈ v.mmio, r.data ≠ .vm id'
  registered : ∀ v, S.st.vms id = some v → ∀ r ∈ v.mmio, r.data ≠ .vm id'
  allocated : ∀ t h j, S.pc t = .allocated h j → j ≠ id ∧ j ≠ id'
  fresh : id < S.st.nextVm ∧ id' < S.st.nextVm

theorem pc_update_eq {pc : Fin n → CreatePc} {t u : Fin n} {p q : CreatePc}
    (h : Function.update pc t p u = q) : (u = t ∧ p = q) ∨ pc u = q := by
  by_cases hut : u = t
  · subst hut; rw [Function.update_same] at h; exact .inl ⟨rfl, h⟩
  · rw [Function.update_noteq hut] at h; exact .inr h

section Lacks

variable {id id' : Nat} {S : Sys n} {t : Fin n} {hartid : BitVec 32}

theorem Sys.Lacks.alloc (hl : S.Lacks id id') :
    Sys.Lacks id id' ⟨{ S.st with nextVm := S.st.nextVm + 1 },
      Function.update S.pc t (.allocated hartid S.st.nextVm)⟩ := by
  have hfresh := hl.fresh
  refine ⟨hl.ne, fun u h v hu => ?_, hl.registered, fun u h j hu => ?_, by dsimp only; omega⟩
  · rcases pc_update_eq hu with ⟨-, hu⟩ | hu
    · cases hu
    · exact hl.prepared u h v hu
  · rcases pc_update_eq hu with ⟨-, hu⟩ | hu
    · cases hu; omega
    · exact hl.allocated u h j hu

/-- The broadcast of VM `j`, neither `id` nor `id'`, adds a region of VM `j` to the registered
tables, and the copy it takes is of another VM. -/
theorem Sys.Lacks.broadcast (hl : S.Lacks id id') {j : Nat} (ht : S.pc t = .allocated hartid j)
    {r : Region} (hr : r.data = .vm j) (v : Vm) :
    Sys.Lacks id id' ⟨{ S.st with vms := addToRegistered S.st.globalVmList r S.st.vms },
      Function.update S.pc t (.prepared hartid j v)⟩ := by
  obtain ⟨hjid, hjid'⟩ := hl.allocated t hartid j ht
  refine ⟨hl.ne, fun u h v' hu => ?_, fun v' hv x hx => ?_, fun u h k hu => ?_, hl.fresh⟩
  · rcases pc_update_eq hu with ⟨-, hu⟩ | hu
    · cases hu; exact absurd rfl hjid
    · exact hl.prepared u h v' hu
  · dsimp only at hv
    obtain ⟨v0, hv0, hmem⟩ := mem_addToRegistered hv
    rcases hmem x hx with hx | rfl
    · exact hl.registered v0 hv0 x hx
    · rw [hr]; exact fun h => hjid' (Cookie.vm.inj h)
  · rcases pc_update_eq hu with ⟨-, hu⟩ | hu
    · cases hu
    · exact hl.allocated u h k hu

/-- `register_vm` of VM `j` puts its copy, with its own CLINT region added, in the registry. -/
theorem Sys.Lacks.register (hl : S.Lacks id id') {j : Nat} {v : Vm}
    (ht : S.pc t = .prepared hartid j v) :
    Sys.Lacks id id' ⟨(finishCreate clintBase clintLen S.st j v hartid).2,
      Function.update S.pc t .idle⟩ := by
  refine ⟨hl.ne, fun u h v' hu => ?_, fun v' hv' r hr => ?_, fun u h k hu => ?_, hl.fresh⟩
  · rcases pc_update_eq hu with ⟨-, hu⟩ | hu
    · cases hu
    · exact hl.prepared u h v' hu
  · simp only [finishCreate, registerVm, Function.update_apply] at hv'
    split at hv'
    · subst j
      cases hv'
      rcases List.mem_append.mp hr with hr | hr
      · exact hl.prepared t hartid v ht r hr
      · rw [List.mem_singleton.mp hr, clintRegion_data]; exact fun h => hl.ne (Cookie.vm.inj h)
    · exact hl.registered v' hv' r hr
  · rcases pc_update_eq hu with ⟨-, hu⟩ | hu
    · cases hu
    · exact hl.allocated u h k hu

theorem Sys.Lacks.step {S' : Sys n} (hl : S.Lacks id id') {a : Act n}
    (hs : Sys.step clintBase clintLen S a = some S') : S'.Lacks id id' := by
  obtain ⟨t, hartid, -, -, rfl⟩ | ⟨t, hartid, j, parent, ht, -, -, rfl⟩ |
      ⟨t, hartid, j, v, ht, rfl⟩ := Sys.step_cases hs
  · exact hl.alloc
  · exact hl.broadcast ht (clintRegion_data _ _) _
  · exact hl.register ht

end Lacks

/-- Once VM `id`'s table lacks the CLINT region of VM `id'` and the creation of `id'` has
broadcast, no interleaving of further creations ever adds it: VM `id` registers, and stays,
without a CLINT region for VM `id'`. -/
theorem lacks_run {id id' : Nat} {S S' : Sys n} (hl : S.Lacks id id') {acts : List (Act n)}
    (hr : Sys.run clintBase clintLen S acts = some S') :
    ∀ v, S'.st.vms id = some v → ∀ r ∈ v.mmio, r.data ≠ .vm id' := by
  induction acts generalizing S with
  | nil => cases hr; exact hl.registered
  | cons a acts ih =>
    obtain ⟨S1, h1, hr⟩ := Option.bind_eq_some.mp hr
    exact ih (hl.step h1) hr

/-- Threads 0 and 1 create harts 1 and 2 (VMs 1 and 2); thread 1 broadcasts between the two
sections of thread 0. -/
def overlap : List (Act 2) := [.alloc 0 1, .alloc 1 2, .broadcast 0, .broadcast 1]

set_option maxRecDepth 4000 in
/-- After the overlap both harts register, and hart 1's table has no CLINT region of hart 2: the
registry is no longer wired. -/
theorem overlapping_creations :
    ∃ S S', Sys.run 0x2000000#32 0x10000#32 afterFirstHart overlap = some S ∧
      Sys.run 0x2000000#32 0x10000#32 S [.register 0, .register 1] = some S' ∧
      S'.st.globalVmList 1 = some 1 ∧ S'.st.globalVmList 2 = some 2 ∧
      (∀ v, S'.st.vms 1 = some v → ∀ r ∈ v.mmio, r.data ≠ .vm 2) ∧
      ¬ Globals.Wired 0x2000000#32 0x10000#32 S'.st := by
  obtain ⟨S, hrun⟩ : ∃ S, Sys.run 0x2000000#32 0x10000#32 afterFirstHart overlap = some S :=
    ⟨_, rfl⟩
  obtain ⟨v0, h0⟩ : ∃ v, S.pc 0 = .prepared 1 1 v := by cases hrun; exact ⟨_, rfl⟩
  obtain ⟨v1, h1⟩ : ∃ v, S.pc 1 = .prepared 2 2 v := by cases hrun; exact ⟨_, rfl⟩
  have hv0 : ∀ r ∈ v0.mmio, r.data ≠ .vm 2 := by
    rw [show v0.mmio = [clintRegion 0x2000000#32 0x10000#32 0 0] by cases hrun; cases h0; rfl]
    simp [clintRegion]
  have hpc : ∀ t : Fin 2, S.pc t = .prepared 1 1 v0 ∨ S.pc t = .prepared 2 2 v1 :=
    Fin.forall_fin_two.mpr ⟨.inl h0, .inr h1⟩
  have hl : S.Lacks 1 2 := by
    refine ⟨by decide, fun t h v ht => ?_, fun v hv => ?_, fun t h j ht => ?_, ?_⟩
    · rcases hpc t with h' | h' <;> rw [h'] at ht <;> cases ht
      exact hv0
    · rw [show S.st.vms 1 = none by cases hrun; rfl] at hv; cases hv
    · rcases hpc t with h' | h' <;> rw [h'] at ht <;> cases ht
    · rw [show S.st.nextVm = 3 by cases hrun; rfl]; decide
  obtain ⟨S', hrun'⟩ : ∃ S', Sys.run 0x2000000#32 0x10000#32 S [.register 0, .register 1] = some S' :=
    by cases hrun; exact ⟨_, rfl⟩
  have hs1 : S'.st.globalVmList 1 = some 1 := by cases hrun; cases hrun'; rfl
  have hs2 : S'.st.globalVmList 2 = some 2 := by cases hrun; cases hrun'; rfl
  have hlacks := lacks_run hl hrun'
  refine ⟨S, S', hrun, hrun', hs1, hs2, hlacks, fun hw => ?_⟩
  obtain ⟨v, hv⟩ : ∃ v, S'.st.vms 1 = some v := by cases hrun; cases hrun'; exact ⟨_, rfl⟩
  have hcount := (hw hs1 hv).1 (show S'.st.globalVmList (2#32).toNat = some 2 from hs2)
  have hmem : clintRegion 0x2000000#32 0x10000#32 2#32 2 ∈ v.mmio :=
    List.count_pos_iff.mp (by rw [hcount]; exact Nat.one_pos)
  exact hlacks v hv _ hmem (clintRegion_data _ _)

/-! ## The slots under the lock -/

/-- The hart and the VM a thread is creating, if it is creating one. -/
def CreatePc.creating : CreatePc → Option (BitVec 32 × Nat)
  | .idle => none
  | .allocated hartid id => some (hartid, id)
  | .prepared hartid id _ => some (hartid, id)

/-- The registry keeps the invariant of calls made one at a time, and each VM a thread is creating
is for a hartid below `MAX_VMS`, named by an earlier `calloc`, not live yet and created by that
thread alone; a thread past its first section saw `global_init` set. -/
structure Sys.Wf (S : Sys n) : Prop where
  st : S.st.Wf
  creating : ∀ {t h id}, (S.pc t).creating = some (h, id) →
    h.toNat < maxVms ∧ id < S.st.nextVm ∧ S.st.vms id = none
  unique : ∀ {t u h h' id}, (S.pc t).creating = some (h, id) →
    (S.pc u).creating = some (h', id) → t = u
  init : ∀ {t h id v}, S.pc t = .prepared h id v → S.st.globalInit = true

theorem creating_update {pc : Fin n → CreatePc} {t u : Fin n} {p : CreatePc}
    {x : BitVec 32 × Nat} (h : (Function.update pc t p u).creating = some x) :
    (u = t ∧ p.creating = some x) ∨ (u ≠ t ∧ (pc u).creating = some x) := by
  by_cases hut : u = t
  · subst hut; rw [Function.update_same] at h; exact .inl ⟨rfl, h⟩
  · rw [Function.update_noteq hut] at h; exact .inr ⟨hut, h⟩

section Wf

variable {S : Sys n} {t : Fin n} {hartid : BitVec 32}

theorem Sys.Wf.idle {st : Globals} (hst : st.Wf) : Sys.Wf (n := n) ⟨st, fun _ => .idle⟩ :=
  ⟨hst, fun h => (by cases h), fun h => (by cases h), fun h => (by cases h)⟩

/-- A `calloc` names a VM no thread holds and none is live. -/
theorem Sys.Wf.alloc (hw : S.Wf) (hlt : hartid.toNat < maxVms) :
    Sys.Wf ⟨{ S.st with nextVm := S.st.nextVm + 1 },
      Function.update S.pc t (.allocated hartid S.st.nextVm)⟩ := by
  have hfresh : S.st.vms S.st.nextVm = none :=
    Option.not_isSome_iff_eq_none.mp fun h => (hw.st.allocated h).false
  refine ⟨hw.st.congr rfl rfl (fun _ => rfl) (Nat.le_succ _) id hw.st.noKill, fun hu => ?_,
    fun hu hu' => ?_, fun hu => ?_⟩
  · rcases creating_update hu with ⟨-, hc⟩ | ⟨-, hc⟩
    · cases hc; exact ⟨hlt, Nat.lt_succ_self _, hfresh⟩
    · obtain ⟨h1, h2, h3⟩ := hw.creating hc
      exact ⟨h1, Nat.lt_succ_of_lt h2, h3⟩
  · rcases creating_update hu with ⟨rfl, hc⟩ | ⟨-, hc⟩ <;>
      rcases creating_update hu' with ⟨rfl, hc'⟩ | ⟨-, hc'⟩
    · rfl
    · cases hc; exact absurd (hw.creating hc').2.1 (Nat.lt_irrefl _)
    · cases hc'; exact absurd (hw.creating hc).2.1 (Nat.lt_irrefl _)
    · exact hw.unique hc hc'
  · rcases pc_update_eq hu with ⟨-, hu⟩ | hu
    · cases hu
    · exact hw.init hu

/-- The first section adds a region to the registered tables and changes what no thread holds. -/
theorem Sys.Wf.broadcast (hw : S.Wf) {j : Nat} (ht : S.pc t = .allocated hartid j)
    (hinit : S.st.globalInit = true) (r : Region) (v : Vm) :
    Sys.Wf ⟨{ S.st with vms := addToRegistered S.st.globalVmList r S.st.vms },
      Function.update S.pc t (.prepared hartid j v)⟩ := by
  have hsame : ∀ u, (Function.update S.pc t (.prepared hartid j v) u).creating =
      (S.pc u).creating := by
    intro u
    by_cases hut : u = t
    · subst hut; rw [Function.update_same, ht]; rfl
    · rw [Function.update_noteq hut]
  have hst : Globals.Wf { S.st with vms := addToRegistered S.st.globalVmList r S.st.vms } :=
    hw.st.congr rfl rfl (fun j => by dsimp only; exact addToRegistered_hart _ _ _ j) le_rfl id
      hw.st.noKill
  refine ⟨hst, fun hu => ?_,
    fun hu hu' => hw.unique ((hsame _).symm.trans hu) ((hsame _).symm.trans hu'), fun hu => ?_⟩
  · obtain ⟨h1, h2, h3⟩ := hw.creating ((hsame _).symm.trans hu)
    refine ⟨h1, h2, Option.not_isSome_iff_eq_none.mp ?_⟩
    simp [addToRegistered_isSome, h3]
  · rcases pc_update_eq hu with ⟨-, -⟩ | hu
    · exact hinit
    · exact hw.init hu

/-- `register_vm` makes live the VM only this thread held. -/
theorem Sys.Wf.register (hw : S.Wf) {j : Nat} {v : Vm} (ht : S.pc t = .prepared hartid j v) :
    Sys.Wf ⟨(finishCreate clintBase clintLen S.st j v hartid).2, Function.update S.pc t .idle⟩ := by
  have hc : (S.pc t).creating = some (hartid, j) := by rw [ht]; rfl
  obtain ⟨hlt, hj, hdead⟩ := hw.creating hc
  have hold : ∀ {u x}, (Function.update S.pc t .idle u).creating = some x →
      u ≠ t ∧ (S.pc u).creating = some x := fun hu => by
    rcases creating_update hu with ⟨-, hu⟩ | hu
    · cases hu
    · exact hu
  refine ⟨hw.st.registerVm_fresh hlt hj hdead (hw.init ht), fun {u h' i} hu => ?_,
    fun hu hu' => hw.unique (hold hu).2 (hold hu').2, fun hu => ?_⟩
  · obtain ⟨hne, hpc⟩ := hold hu
    obtain ⟨h1, h2, h3⟩ := hw.creating hpc
    have hij : i ≠ j := fun h => by subst h; exact hne (hw.unique hpc hc)
    exact ⟨h1, h2, by simp only [finishCreate, registerVm, Function.update_apply, if_neg hij, h3]⟩
  · rcases pc_update_eq hu with ⟨-, hu⟩ | hu
    · cases hu
    · exact hw.init hu

theorem Sys.Wf.step {S' : Sys n} (hw : S.Wf) {a : Act n}
    (hs : Sys.step clintBase clintLen S a = some S') : S'.Wf := by
  obtain ⟨t, hartid, -, hlt, rfl⟩ | ⟨t, hartid, j, parent, ht, hinit, -, rfl⟩ |
      ⟨t, hartid, j, v, ht, rfl⟩ := Sys.step_cases hs
  · exact hw.alloc hlt
  · exact hw.broadcast ht hinit _ _
  · exact hw.register ht

theorem Sys.Wf.run {S' : Sys n} (hw : S.Wf) {acts : List (Act n)}
    (hr : Sys.run clintBase clintLen S acts = some S') : S'.Wf := by
  induction acts generalizing S with
  | nil => cases hr; exact hw
  | cons a acts ih =>
    obtain ⟨S1, h1, hr⟩ := Option.bind_eq_some.mp hr
    exact ih (hw.step h1) hr

end Wf

/-- Over any interleaving of creations by any number of threads, from a registry that calls made
one at a time reached and with every thread idle, the registry keeps the invariant of those calls:
every filled slot `h` holds a live VM whose `hartid` is `h`, and `global_vm_count` is at least the
number of filled slots. The lock keeps the slots and the count, though not the tables
(`lacks_run`). -/
theorem interleaved_registry_slots {devices : List Region} {st : Globals}
    (hr : Reachable clintBase clintLen devices st) {acts : List (Act n)} {S' : Sys n}
    (hrun : Sys.run clintBase clintLen ⟨st, fun _ => .idle⟩ acts = some S') :
    (∀ {h id}, S'.st.globalVmList h = some id →
      h < maxVms ∧ ∃ v, S'.st.vms id = some v ∧ v.hart.hartid.toNat = h) ∧
    (registered S'.st).length ≤ S'.st.globalVmCount :=
  have hw := (Sys.Wf.idle hr.wf).run hrun
  ⟨hw.st.slot, hw.st.count⟩

set_option maxRecDepth 4000 in
/-- Hart 0 created, then the overlap of two creations and both registrations. -/
theorem overlap_keeps_slots :
    ∃ st S', Globals.run 0x2000000#32 0x10000#32 [] .init [.create 0 true] = .ok st ∧
      Sys.run 0x2000000#32 0x10000#32 (⟨st, fun _ => .idle⟩ : Sys 2)
        (overlap ++ [.register 0, .register 1]) = some S' ∧
      (∀ {h id}, S'.st.globalVmList h = some id →
        h < maxVms ∧ ∃ v, S'.st.vms id = some v ∧ v.hart.hartid.toNat = h) ∧
      (registered S'.st).length ≤ S'.st.globalVmCount := by
  obtain ⟨st, hst⟩ :
      ∃ st, Globals.run 0x2000000#32 0x10000#32 [] .init [.create 0 true] = .ok st := ⟨_, rfl⟩
  obtain ⟨S', hrun⟩ : ∃ S', Sys.run 0x2000000#32 0x10000#32 (⟨st, fun _ => .idle⟩ : Sys 2)
      (overlap ++ [.register 0, .register 1]) = some S' := by
    cases hst; exact ⟨_, rfl⟩
  exact ⟨st, S', hst, hrun, interleaved_registry_slots (Reachable.init.run hst) hrun⟩

end Concurrent

end Rvvm.Registry
