import Rvvm.Hart.Privilege

/-!
# What `riscv32_trap` does

`riscv32_trap` and `riscv32_perform_interrupt` choose their target level with the same loop,
`delegScan`, and then do the same thing at that level: save the PC, the cause and the value in
its `epc`, `cause` and `tval`, push the old level and the interrupt enable into `status`, and
switch to it. `scanTarget_spec` says where the loop stops, `getLsbD_pushStatus_machine` and
`getLsbD_pushStatus_supervisor` what the push does to each bit of `status`, and
`riscv32Trap_spec` puts them together for a trap taken from the user, supervisor or machine
level with `edeleg[HYPERVISOR]` as `riscv32_create_vm` sets it.
-/

namespace Rvvm.Hart

/-! ## The delegation loop -/

theorem delegScan_spec (deleg : Priv → BitVec 32) (cause floor : Nat) :
    ∀ {p : Nat}, floor ≤ p →
      floor ≤ delegScan deleg cause floor p ∧ delegScan deleg cause floor p ≤ p ∧
      (delegScan deleg cause floor p = floor ∨
        deleg (Fin.ofNat (delegScan deleg cause floor p)) &&& bit cause = 0) ∧
      ∀ q, delegScan deleg cause floor p < q → q ≤ p → deleg (Fin.ofNat q) &&& bit cause ≠ 0
  | 0, h => ⟨h, Nat.le_refl 0, .inl (by simp [delegScan]; omega),
      fun q hq hqp => by simp [delegScan] at hq; omega⟩
  | p + 1, h => by
    unfold delegScan
    split
    · rename_i hc
      obtain ⟨h1, h2, h3, h4⟩ := delegScan_spec deleg cause floor (p := p) (by omega)
      refine ⟨h1, by omega, h3, fun q hq hqp => ?_⟩
      rcases Nat.lt_or_ge q (p + 1) with hlt | hge
      · exact h4 q hq (by omega)
      · obtain rfl : q = p + 1 := by omega
        exact hc.2
    · rename_i hc
      refine ⟨h, Nat.le_refl _, ?_, fun q hq hqp => absurd hqp (by omega)⟩
      by_cases hf : floor < p + 1
      · exact .inr (not_not.mp fun hne => hc ⟨hf, hne⟩)
      · exact .inl (by omega)

/-- The level a delegation loop from machine level down to `floor` stops at: not below `floor`;
`floor` itself or a level whose mask leaves `cause` undelegated; and every level above it
delegates `cause`. So it is the highest level above `floor` that does not delegate `cause`, or
`floor` when every such level delegates it. -/
theorem scanTarget_spec (deleg : Priv → BitVec 32) (cause : Nat) {floor : Nat} (hf : floor ≤ 3) :
    floor ≤ (Fin.ofNat (delegScan deleg cause floor 3) : Priv).val ∧
    ((Fin.ofNat (delegScan deleg cause floor 3) : Priv).val = floor ∨
      deleg (Fin.ofNat (delegScan deleg cause floor 3)) &&& bit cause = 0) ∧
    ∀ q : Priv, (Fin.ofNat (delegScan deleg cause floor 3) : Priv) < q →
      deleg q &&& bit cause ≠ 0 := by
  obtain ⟨h1, h2, h3, h4⟩ := delegScan_spec deleg cause floor hf
  have hval : (Fin.ofNat (delegScan deleg cause floor 3) : Priv).val =
      delegScan deleg cause floor 3 := Nat.mod_eq_of_lt (by omega)
  refine ⟨by rw [hval]; exact h1, by rw [hval]; exact h3, fun q hq => ?_⟩
  have := h4 q.val (by rw [Fin.lt_def, hval] at hq; exact hq) (by omega)
  rwa [show (Fin.ofNat q.val : Priv) = q from Fin.ext (Nat.mod_eq_of_lt q.isLt)] at this

theorem trapTarget_spec (s : HartState) (cause : Nat) :
    s.privMode ≤ trapTarget s cause ∧
    (trapTarget s cause = s.privMode ∨ s.edeleg (trapTarget s cause) &&& bit cause = 0) ∧
    ∀ q, trapTarget s cause < q → s.edeleg q &&& bit cause ≠ 0 := by
  obtain ⟨h1, h2, h3⟩ := scanTarget_spec s.edeleg cause (Nat.le_of_lt_succ s.privMode.isLt)
  exact ⟨h1, h2.imp_left Fin.ext, h3⟩

/-- Every cause below 32 has its bit in a mask of all ones. -/
theorem allOnes_and_bit : ∀ cause, cause < 32 → 0xFFFFFFFF#32 &&& bit cause ≠ 0 := by decide

/-! ## The status push -/

theorem getLsbD_clearBit3 : ∀ i, i < 32 → (0xFFFFFFF7#32).getLsbD i = decide (i ≠ 3) := by
  decide

theorem getLsbD_clearBit1 : ∀ i, i < 32 → (0xFFFFFFFD#32).getLsbD i = decide (i ≠ 1) := by
  decide

/-- Entering machine level: `MPP` (bits 12:11) takes the old level, `MPIE` (bit 7) the old
`MIE` (bit 3), and `MIE` is cleared. -/
theorem getLsbD_pushStatus_machine (status : BitVec 32) (priv : Priv) {i : Nat} (hi : i < 32) :
    (pushStatus status Priv.machine priv).getLsbD i =
      if i = 11 ∨ i = 12 then priv.val.testBit (i - 11)
      else if i = 7 then status.getLsbD 3 else if i = 3 then false else status.getLsbD i := by
  have h3 := getLsbD_bitReplace status (BitVec.ofNat 32 priv) 11 2 (show 3 < 32 by omega)
  simp only [pushStatus, if_true, BitVec.getLsbD_and, getLsbD_clearBit3 i hi,
    getLsbD_bitReplace _ _ _ _ hi, getLsbD_bitCut, BitVec.getLsbD_ofNat]
  rcases (show i = 3 ∨ i = 7 ∨ i = 11 ∨ i = 12 ∨ (i ≠ 3 ∧ i ≠ 7 ∧ i ≠ 11 ∧ i ≠ 12) by omega)
    with rfl | rfl | rfl | rfl | ⟨h3', h7, h11, h12⟩
  · simp
  · simp [h3]
  · simp
  · simp
  · simp [h3', h7, h11, h12, show ¬ (7 ≤ i ∧ i < 7 + 1) by omega,
      show ¬ (11 ≤ i ∧ i < 11 + 2) by omega]

/-- Entering supervisor level: `SPP` (bit 8) takes the old level, `SPIE` (bit 5) the old `SIE`
(bit 1), and `SIE` is cleared. -/
theorem getLsbD_pushStatus_supervisor (status : BitVec 32) (priv : Priv) {i : Nat}
    (hi : i < 32) :
    (pushStatus status Priv.supervisor priv).getLsbD i =
      if i = 8 then priv.val.testBit 0
      else if i = 5 then status.getLsbD 1 else if i = 1 then false else status.getLsbD i := by
  have h1 := getLsbD_bitReplace status (BitVec.ofNat 32 priv) 8 1 (show 1 < 32 by omega)
  simp only [pushStatus, show Priv.supervisor ≠ Priv.machine by decide, if_false, if_true,
    BitVec.getLsbD_and, getLsbD_clearBit1 i hi, getLsbD_bitReplace _ _ _ _ hi, getLsbD_bitCut,
    BitVec.getLsbD_ofNat]
  rcases (show i = 1 ∨ i = 5 ∨ i = 8 ∨ (i ≠ 1 ∧ i ≠ 5 ∧ i ≠ 8) by omega)
    with rfl | rfl | rfl | ⟨h1', h5, h8⟩
  · simp
  · simp [h1]
  · simp
  · simp [h1', h5, h8, show ¬ (5 ≤ i ∧ i < 5 + 1) by omega, show ¬ (8 ≤ i ∧ i < 8 + 1) by omega]

/-- Entering the user or hypervisor level leaves `status` alone. -/
theorem pushStatus_of_ne {status : BitVec 32} {p : Priv} (priv : Priv) (hm : p ≠ Priv.machine)
    (hs : p ≠ Priv.supervisor) : pushStatus status p priv = status := by
  simp [pushStatus, hm, hs]

/-! ## Entering a level -/

section Enter

variable (s : HartState) (p : Priv) (cause tval : BitVec 32)

@[simp] theorem HartState.enter_privMode : (s.enter p cause tval).privMode = p := rfl
@[simp] theorem HartState.enter_status :
    (s.enter p cause tval).status = pushStatus s.status p s.privMode := rfl
@[simp] theorem HartState.enter_pc : (s.enter p cause tval).pc = s.pc := rfl
@[simp] theorem HartState.enter_ie : (s.enter p cause tval).ie = s.ie := rfl
@[simp] theorem HartState.enter_ip : (s.enter p cause tval).ip = s.ip := rfl
@[simp] theorem HartState.enter_tvec : (s.enter p cause tval).tvec = s.tvec := rfl
@[simp] theorem HartState.enter_evTrap : (s.enter p cause tval).evTrap = s.evTrap := rfl
@[simp] theorem HartState.enter_cause :
    (s.enter p cause tval).cause = Function.update s.cause p cause := rfl

/-- What entering level `p` saves, at `p` and nowhere else. -/
theorem HartState.enter_saved (q : Priv) :
    (s.enter p cause tval).epc q = (if q = p then s.pc else s.epc q) ∧
    (s.enter p cause tval).cause q = (if q = p then cause else s.cause q) ∧
    (s.enter p cause tval).tval q = (if q = p then tval else s.tval q) := by
  simp [HartState.enter, Function.update_apply]

end Enter

/-! ## `riscv32_trap` -/

/-- `riscv32_trap(vm, cause, tval)` from the user, supervisor or machine level, with
`edeleg[HYPERVISOR]` delegating everything as `riscv32_create_vm` sets it. The new level `p` is
not below the old one and not the hypervisor level; it is the old level or one whose `edeleg`
leaves `cause` undelegated, and every level above it delegates `cause`, so it is the highest
level above the old one that does not delegate `cause`, or the old level when every such level
delegates it. The old PC, `cause` and `tval` are saved at `p` alone; `status` changes only in
the fields of `p`; `ev_trap` is raised; `ie`, `ip`, `tvec` and the PC are left alone. -/
theorem riscv32Trap_spec {s : HartState} (hmode : s.privMode ≠ Priv.hypervisor)
    (hdeleg : s.edeleg Priv.hypervisor = 0xFFFFFFFF#32) {cause : Nat} (hcause : cause < 32)
    (tval : BitVec 32) :
    let s' := riscv32Trap s cause tval
    let p := s'.privMode
    (s.privMode ≤ p ∧ p ≠ Priv.hypervisor ∧
      (p = s.privMode ∨ s.edeleg p &&& bit cause = 0) ∧ ∀ q, p < q → s.edeleg q &&& bit cause ≠ 0) ∧
    (s'.epc p = s.pc ∧ s'.cause p = BitVec.ofNat 32 cause ∧ s'.tval p = tval ∧
      ∀ q, q ≠ p → s'.epc q = s.epc q ∧ s'.cause q = s.cause q ∧ s'.tval q = s.tval q) ∧
    (p = Priv.machine → ∀ i < 32, s'.status.getLsbD i =
      if i = 11 ∨ i = 12 then s.privMode.val.testBit (i - 11)
      else if i = 7 then s.status.getLsbD 3 else if i = 3 then false else s.status.getLsbD i) ∧
    (p = Priv.supervisor → ∀ i < 32, s'.status.getLsbD i =
      if i = 8 then s.privMode.val.testBit 0
      else if i = 5 then s.status.getLsbD 1 else if i = 1 then false else s.status.getLsbD i) ∧
    (p ≠ Priv.machine → p ≠ Priv.supervisor → s'.status = s.status) ∧
    s'.evTrap = true ∧ s'.ie = s.ie ∧ s'.ip = s.ip ∧ s'.tvec = s.tvec ∧ s'.pc = s.pc := by
  intro s' p
  obtain ⟨hle, hat, habove⟩ := trapTarget_spec s cause
  have hsaved := HartState.enter_saved s (trapTarget s cause) (BitVec.ofNat 32 cause) tval
  refine ⟨⟨hle, fun hp => ?_, hat, habove⟩,
    ⟨(hsaved p).1.trans (if_pos rfl), (hsaved p).2.1.trans (if_pos rfl),
      (hsaved p).2.2.trans (if_pos rfl), fun q hq => ⟨(hsaved q).1.trans (if_neg hq),
        (hsaved q).2.1.trans (if_neg hq), (hsaved q).2.2.trans (if_neg hq)⟩⟩,
    fun hm i hi => ?_, fun hs i hi => ?_, fun hm hs => pushStatus_of_ne _ hm hs,
    rfl, rfl, rfl, rfl, rfl⟩
  · rcases hat with h | h
    · exact hmode (h.symm.trans hp)
    · exact allOnes_and_bit cause hcause (hdeleg ▸ hp ▸ h)
  · show (pushStatus s.status p s.privMode).getLsbD i = _
    rw [hm, getLsbD_pushStatus_machine _ _ hi]
  · show (pushStatus s.status p s.privMode).getLsbD i = _
    rw [hs, getLsbD_pushStatus_supervisor _ _ hi]

/-- An environment call from user level that the machine level delegates and the supervisor
level does not is delivered to the supervisor level. -/
theorem trap_from_user_to_supervisor :
    let s : HartState :=
      { HartState.init 0 with
        privMode := Priv.user
        edeleg := Function.update (HartState.init 0).edeleg Priv.machine (bit 8) }
    s.privMode ≠ Priv.hypervisor ∧ s.edeleg Priv.hypervisor = 0xFFFFFFFF#32 ∧ 8 < 32 ∧
      (riscv32Trap s 8 0).privMode ≠ Priv.hypervisor ∧
      (riscv32Trap s 8 0).privMode = Priv.supervisor := by
  intro s
  have h1 : s.privMode ≠ Priv.hypervisor := by decide
  have h2 : s.edeleg Priv.hypervisor = 0xFFFFFFFF#32 := rfl
  exact ⟨h1, h2, by decide, (riscv32Trap_spec h1 h2 (by decide) 0).1.2.1, by decide⟩

end Rvvm.Hart
