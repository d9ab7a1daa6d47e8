import Rvvm.Hart.Trap

/-!
# What `riscv32_handle_ip` delivers

`riscv32_handle_ip` scans the interrupt numbers from 11 down to 1 and delivers the first one that
is pending in `ip`, enabled in `ie` and allowed by `iallow`, which compares the interrupt's own
level `i & 3` with the current level. `firstFiring_eq_none` and `firstFiring_max` say what the
scan finds: nothing exactly when no interrupt fires, and otherwise the highest-numbered firing
one. From them, `riscv32HandleIp_spec` states the whole effect of a call and
`riscv32HandleIp_fires_iff` when it delivers.

The loop runs by number, so a higher number beats a higher level: with the machine software
interrupt 3 and the supervisor external interrupt 9 both firing, 9 is taken
(`handleIp_prefers_number`), against the comment "prioritizing higher priv source".
The test of `iallow` reads the interrupt's level, not the level `ideleg` delivers it to, so an
undelegated supervisor interrupt in supervisor mode with `SIE` clear stays pending although
it would be taken at machine level (`handleIp_source_level`).
-/

namespace Rvvm.Hart

/-! ## The scan -/

section Scan

variable {s : HartState} {wfi : Bool}

/-- The scan finds nothing exactly when no interrupt from 1 to `n` fires. -/
theorem firstFiring_eq_none {n : Nat} :
    firstFiring s wfi n = none ↔
      ∀ i, 0 < i → i ≤ n → ¬ (s.ip &&& bit i ≠ 0 ∧ s.ie &&& bit i ≠ 0 ∧ iallow s wfi i = true) := by
  induction n with
  | zero => exact ⟨fun _ i hi hin => absurd hi (by omega), fun _ => rfl⟩
  | succ n ih =>
    unfold firstFiring
    split
    · rename_i hc
      exact ⟨nofun, fun h => absurd hc (h (n + 1) (by omega) (Nat.le_refl _))⟩
    · rename_i hc
      rw [ih]
      refine ⟨fun h i hi hin => ?_, fun h i hi hin => h i hi (by omega)⟩
      rcases Nat.lt_or_ge i (n + 1) with hlt | hge
      · exact h i hi (by omega)
      · obtain rfl : i = n + 1 := by omega
        exact hc

/-- The scan takes the highest-numbered firing interrupt up to `n`. -/
theorem firstFiring_max {n i : Nat} (h : firstFiring s wfi n = some i) :
    ∀ j, i < j → j ≤ n → ¬ (s.ip &&& bit j ≠ 0 ∧ s.ie &&& bit j ≠ 0 ∧ iallow s wfi j = true) := by
  induction n with
  | zero => cases h
  | succ n ih =>
    unfold firstFiring at h
    split at h
    · cases h
      exact fun j hij hjn => absurd hjn (by omega)
    · rename_i hc
      intro j hij hjn
      rcases Nat.lt_or_ge j (n + 1) with hlt | hge
      · exact ih h j hij (by omega)
      · obtain rfl : j = n + 1 := by omega
        exact hc

/-- The scan finds `i` exactly when `i` fires and no higher-numbered interrupt up to `n` does. -/
theorem firstFiring_eq_some_iff {n i : Nat} :
    firstFiring s wfi n = some i ↔
      (s.ip &&& bit i ≠ 0 ∧ s.ie &&& bit i ≠ 0 ∧ iallow s wfi i = true) ∧ 0 < i ∧ i ≤ n ∧
        ∀ j, i < j → j ≤ n →
          ¬ (s.ip &&& bit j ≠ 0 ∧ s.ie &&& bit j ≠ 0 ∧ iallow s wfi j = true) := by
  constructor
  · intro h
    obtain ⟨hip, hie, hallow, hpos, hle⟩ := firstFiring_spec h
    exact ⟨⟨hip, hie, hallow⟩, hpos, hle, firstFiring_max h⟩
  · rintro ⟨hi, hpos, hle, hmax⟩
    induction n with
    | zero => omega
    | succ n ih =>
      unfold firstFiring
      split
      · rename_i hc
        rcases hle.lt_or_eq with hlt | rfl
        · exact absurd hc (hmax _ hlt le_rfl)
        · rfl
      · rename_i hc
        have hne : i ≠ n + 1 := by rintro rfl; exact hc hi
        exact ih (by omega) fun j hij hjn => hmax j hij (by omega)

end Scan

/-! ## Delivery -/

/-- The test of `riscv32_handle_ip` spelled out. -/
theorem iallow_eq_true {s : HartState} {wfi : Bool} {i : Nat} :
    iallow s wfi i = true ↔ s.privMode.val < i &&& 3 ∨
      i &&& 3 = s.privMode.val ∧ (s.status &&& bit (i &&& 3) ≠ 0 ∨ wfi = true) := by
  simp [iallow]

theorem interruptTarget_spec (s : HartState) (i : Nat) :
    i &&& 3 ≤ (interruptTarget s i).val ∧
    ((interruptTarget s i).val = i &&& 3 ∨ s.ideleg (interruptTarget s i) &&& bit i = 0) ∧
    ∀ q, interruptTarget s i < q → s.ideleg q &&& bit i ≠ 0 :=
  scanTarget_spec s.ideleg i Nat.and_le_right

/-- An allowed interrupt is delivered at or above the current level, and at the current level
only when that level's global enable is set or the hart waits in WFI. -/
theorem interruptTarget_allowed {s : HartState} {wfi : Bool} {i : Nat}
    (h : iallow s wfi i = true) :
    s.privMode ≤ interruptTarget s i ∧
    (interruptTarget s i = s.privMode →
      s.status &&& bit (interruptTarget s i).val ≠ 0 ∨ wfi = true) := by
  have hlow := (interruptTarget_spec s i).1
  rcases iallow_eq_true.mp h with hlt | ⟨heq, hen⟩
  · exact ⟨Fin.le_def.mpr (by omega), fun he => absurd (Fin.val_eq_of_eq he) (by omega)⟩
  · refine ⟨Fin.le_def.mpr (by omega), fun he => ?_⟩
    rw [he, ← heq]
    exact hen

/-- `riscv32_handle_ip(vm, wfi)`. When it returns false the hart is unchanged. When it returns
true it has delivered one interrupt `i` from 1 to 11, pending in `ip` and enabled in `ie`, at a
level `p` not below the current one, and equal to it only if that level's global enable is set
or the hart waits in WFI: `epc[p]` is the PC, plus 4 in WFI; `cause[p]` is `i` with the interrupt
bit; `tval[p]` is 0; `status` is pushed as by a trap; `ev_trap` is raised in WFI and left alone
otherwise. Besides, the PC itself moves by 4 in WFI and `wait_event` is cleared. -/
theorem riscv32HandleIp_spec (s : HartState) (wfi : Bool) :
    ((riscv32HandleIp s wfi).1 = false → (riscv32HandleIp s wfi).2 = s) ∧
    ((riscv32HandleIp s wfi).1 = true → ∃ i p, 1 ≤ i ∧ i ≤ 11 ∧ s.ip &&& bit i ≠ 0 ∧
      s.ie &&& bit i ≠ 0 ∧ s.privMode ≤ p ∧
      (p = s.privMode → s.status &&& bit p.val ≠ 0 ∨ wfi = true) ∧
      (riscv32HandleIp s wfi).2 =
        { s with
          pc := if wfi then s.pc + 4#32 else s.pc
          epc := Function.update s.epc p (if wfi then s.pc + 4#32 else s.pc)
          cause := Function.update s.cause p (BitVec.ofNat 32 i ||| interruptMask)
          tval := Function.update s.tval p 0
          status := pushStatus s.status p s.privMode
          privMode := p
          evTrap := wfi || s.evTrap
          waitEvent := 0 }) := by
  rcases riscv32HandleIp_cases s wfi with h | ⟨i, hi, h⟩ <;> rw [h]
  · exact ⟨fun _ => rfl, nofun⟩
  · obtain ⟨hip, hie, hallow, hpos, hle⟩ := firstFiring_spec hi
    obtain ⟨hmode, hen⟩ := interruptTarget_allowed hallow
    refine ⟨nofun, fun _ => ⟨i, interruptTarget s i, hpos, hle, hip, hie, hmode, hen, ?_⟩⟩
    cases wfi <;> rfl

/-- In WFI the PC moves as well: the machine software interrupt taken from user level in WFI
leaves the PC 4 further on, besides saving that address in `epc`. -/
theorem handleIp_wfi_moves_pc :
    let s : HartState := { HartState.init 0 with privMode := Priv.user, ip := bit 3, ie := bit 3 }
    (riscv32HandleIp s true).1 = true ∧ (riscv32HandleIp s true).2.pc ≠ s.pc := by
  decide

/-- `riscv32_handle_ip` delivers an interrupt exactly when some interrupt from 1 to 11 is
pending, enabled, and of a level above the current one, or of the current level with its global
enable set or in WFI. -/
theorem riscv32HandleIp_fires_iff (s : HartState) (wfi : Bool) :
    (riscv32HandleIp s wfi).1 = true ↔
      ∃ i, 1 ≤ i ∧ i ≤ 11 ∧ s.ip &&& bit i ≠ 0 ∧ s.ie &&& bit i ≠ 0 ∧
        (s.privMode.val < i &&& 3 ∨
          i &&& 3 = s.privMode.val ∧ (s.status &&& bit (i &&& 3) ≠ 0 ∨ wfi = true)) := by
  constructor
  · intro h
    rcases riscv32HandleIp_cases s wfi with he | ⟨i, hi, -⟩
    · rw [he] at h; cases h
    · obtain ⟨hip, hie, hallow, hpos, hle⟩ := firstFiring_spec hi
      exact ⟨i, hpos, hle, hip, hie, iallow_eq_true.mp hallow⟩
  · rintro ⟨i, hpos, hle, hip, hie, hallow⟩
    have hsome : firstFiring s wfi 11 ≠ none := fun hn =>
      firstFiring_eq_none.mp hn i hpos hle ⟨hip, hie, iallow_eq_true.mpr hallow⟩
    have hip0 : s.ip ≠ 0 := fun h0 => hip (by rw [h0]; exact BitVec.zero_and)
    unfold riscv32HandleIp
    rw [if_pos hip0]
    obtain ⟨j, hj⟩ := Option.ne_none_iff_exists'.mp hsome
    rw [hj]

/-- An undelegated supervisor software interrupt in supervisor mode with `SIE` clear: the scan
of `ideleg` from machine level down to the current level stops above the current level, but
`riscv32_handle_ip` tests the interrupt's own level and leaves it pending. -/
theorem handleIp_source_level :
    let s : HartState :=
      { HartState.init 0 with privMode := Priv.supervisor, ip := bit 1, ie := bit 1 }
    (riscv32HandleIp s false).1 = false ∧ s.ip &&& bit 1 ≠ 0 ∧ s.ie &&& bit 1 ≠ 0 ∧
      s.privMode.val < delegScan s.ideleg 1 s.privMode 3 := by
  decide

/-- From user level, with the machine software interrupt 3 and the supervisor external interrupt 9
both pending, enabled and allowed, the scan delivers 9, of the lower level. -/
theorem handleIp_prefers_number :
    let s : HartState :=
      { HartState.init 0 with privMode := Priv.user, ip := bit 3 ||| bit 9, ie := bit 3 ||| bit 9 }
    firstFiring s false 11 = some 9 ∧
      (riscv32HandleIp s false).2.cause Priv.machine = 9#32 ||| interruptMask ∧
      s.ip &&& bit 3 ≠ 0 ∧ s.ie &&& bit 3 ≠ 0 ∧ iallow s false 3 = true ∧ 9 &&& 3 < 3 &&& 3 := by
  intro s
  have h9 : firstFiring s false 11 = some 9 := by
    refine firstFiring_eq_some_iff.mpr ⟨by decide, by decide, by decide, fun j hj hjn => ?_⟩
    obtain rfl | rfl : j = 10 ∨ j = 11 := by omega
    all_goals decide
  have hip : riscv32HandleIp s false = (true, riscv32PerformInterrupt s 9) := by
    rw [riscv32HandleIp, if_pos (by decide), h9]
    rfl
  refine ⟨h9, ?_, by decide, by decide, by decide, by decide⟩
  rw [hip]
  decide

end Rvvm.Hart
