import Rvvm.Ata.Image

/-!
# The DRQ flag and the bytes left in a sector

A drive announces data with `DRQ` and counts what is left of the current sector in
`bytes_to_rw`. `DrqInv` is the bookkeeping every drive keeps in every reachable state: at most a
sector pending, `DRQ` up while data is pending, and, on a host whose `fseek` and `fread` never
fail, `DRQ` up only while data is pending. A failed seek or read leaves `DRQ` up with nothing
pending, which is why the last part needs the host. `reachable_drqInv` is the result.
-/

namespace Rvvm.Ata

variable {σ : Type} {io : Stdio σ}

/-! ## The DRQ bit -/

theorem and_drq_ne_zero (s : BitVec 8) : s &&& Status.drq ≠ 0 ↔ s.getLsbD 3 = true := by
  revert s; decide

@[simp] theorem Drive.drq_iff (d : Drive σ) : d.drq ↔ d.status.getLsbD 3 = true :=
  and_drq_ne_zero _

@[simp] theorem Status.getLsbD_err : Status.err.getLsbD 3 = false := by decide
@[simp] theorem Status.getLsbD_drq : Status.drq.getLsbD 3 = true := by decide
@[simp] theorem Status.getLsbD_srv : Status.srv.getLsbD 3 = false := by decide
@[simp] theorem Status.getLsbD_rdy : Status.rdy.getLsbD 3 = false := by decide

@[simp] theorem Drive.setErrUnc_status (d : Drive σ) :
    d.setErrUnc.status = d.status ||| Status.err := rfl

@[simp] theorem Drive.setErrUnc_bytesToRw (d : Drive σ) : d.setErrUnc.bytesToRw = d.bytesToRw :=
  rfl

theorem toNat_sub_ofNat {w : Nat} (x : BitVec w) {n : Nat} (h : n ≤ x.toNat) :
    (x - BitVec.ofNat w n).toNat = x.toNat - n := by
  have hx := x.isLt
  have hn : n % 2 ^ w = n := Nat.mod_eq_of_lt (by omega)
  rw [BitVec.toNat_sub, BitVec.toNat_ofNat, hn,
    show 2 ^ w - n + x.toNat = (x.toNat - n) + 2 ^ w by omega, Nat.add_mod_right,
    Nat.mod_eq_of_lt (by omega)]

@[simp] theorem toNat_sectorSize : (BitVec.ofNat 16 sectorSize).toNat = 512 := rfl

/-! ## The invariant -/

/-- A host on which `fseek` and `fread` never fail. -/
def Stdio.Reliable (io : Stdio σ) : Prop :=
  (∀ f offset, (io.fseekSet f offset).1 = true) ∧ (∀ f buf, (io.fread f buf).1 = true)

/-- The DRQ bookkeeping of a drive. `exact` is the condition under which `DRQ` is up only while
data is pending. -/
structure Drive.DrqInv (exact : Prop) (d : Drive σ) : Prop where
  bytes_le : d.bytesToRw.toNat ≤ sectorSize
  drq_of_pending : 0 < d.bytesToRw.toNat → d.drq
  pending_of_drq : exact → d.drq → 0 < d.bytesToRw.toNat

/-- A drive whose pending count and status are those of an invariant drive. -/
theorem Drive.DrqInv.congr {P : Prop} {d d' : Drive σ} (hd : d.DrqInv P)
    (hbytes : d'.bytesToRw = d.bytesToRw) (hdrq : d'.drq ↔ d.drq) : d'.DrqInv P :=
  ⟨hbytes ▸ hd.bytes_le, fun h => hdrq.mpr (hd.drq_of_pending (hbytes ▸ h)),
    fun hP h => hbytes ▸ hd.pending_of_drq hP (hdrq.mp h)⟩

/-- A drive with a whole sector pending and `DRQ` up. -/
theorem Drive.DrqInv.of_full {P : Prop} {d : Drive σ}
    (hbytes : d.bytesToRw = BitVec.ofNat 16 sectorSize) (hdrq : d.drq) : d.DrqInv P :=
  ⟨by simp [hbytes, sectorSize], fun _ => hdrq, fun _ _ => by simp [hbytes, sectorSize]⟩

/-- A drive with nothing pending and `DRQ` down. -/
theorem Drive.DrqInv.of_idle {P : Prop} {d : Drive σ}
    (hbytes : d.bytesToRw = 0) (hdrq : ¬ d.drq) : d.DrqInv P :=
  ⟨by simp [hbytes, sectorSize], fun h => by simp [hbytes] at h, fun _ h => absurd h hdrq⟩

/-- A drive after a sector command: `DRQ` up, and a whole sector pending unless the host failed
a call. -/
theorem Drive.DrqInv.of_command {d d' : Drive σ} (hd : d.DrqInv io.Reliable) (hdrq : d'.drq)
    (hbytes : d'.bytesToRw = BitVec.ofNat 16 sectorSize ∨
      d'.bytesToRw = d.bytesToRw ∧ ¬ io.Reliable) : d'.DrqInv io.Reliable := by
  rcases hbytes with hb | ⟨hb, hrel⟩
  · exact .of_full hb hdrq
  · exact ⟨hb ▸ hd.bytes_le, fun _ => hdrq, fun h => absurd h hrel⟩

/-- A drive with nothing pending after a host call failed. -/
theorem Drive.DrqInv.of_failed {P : Prop} {d : Drive σ} (hbytes : d.bytesToRw = 0) (hP : ¬ P) :
    d.DrqInv P :=
  ⟨by simp [hbytes, sectorSize], fun h => by simp [hbytes] at h, fun h => absurd h hP⟩

/-! ## Commands -/

@[simp] theorem sectorCommandStart_bytesToRw (d : Drive σ) :
    (sectorCommandStart d).bytesToRw = d.bytesToRw := by
  unfold sectorCommandStart; split <;> rfl

@[simp] theorem sectorCommandStart_fp (d : Drive σ) : (sectorCommandStart d).fp = d.fp := by
  unfold sectorCommandStart; split <;> rfl

theorem drq_sectorCommandStart (d : Drive σ) : (sectorCommandStart d).drq := by
  unfold sectorCommandStart; split <;> simp

theorem ataCmdReadSectors_drq {d d' : Drive σ} (h : ataCmdReadSectors io d = .ok d') :
    d'.drq ∧ (d'.bytesToRw = BitVec.ofNat 16 sectorSize ∨
      d'.bytesToRw = d.bytesToRw ∧ ¬ io.Reliable) := by
  unfold ataCmdReadSectors at h
  obtain ⟨⟨ok, d1⟩, hs, h⟩ := Except.bind_eq_ok.mp h
  obtain ⟨f, -, rfl, rfl⟩ := Drive.fseek_ok hs
  have hstart := drq_sectorCommandStart d
  simp only [Drive.drq_iff] at hstart ⊢
  dsimp only at h
  split at h
  · obtain ⟨⟨ok, d2⟩, hr, h⟩ := Except.bind_eq_ok.mp h
    obtain ⟨g, -, rfl, rfl⟩ := ataReadBuf_ok hr
    cases h
    by_cases hok : (io.fread g (sectorCommandStart d).buf).1 = true
    · simp [hok, hstart]
    · simp only [hok, Bool.false_eq_true, if_false, Drive.setErrUnc_status,
        Drive.setErrUnc_bytesToRw, sectorCommandStart_bytesToRw, BitVec.getLsbD_or, hstart,
        Bool.true_or, true_and]
      exact .inr fun hrel => hok (hrel.2 _ _)
  · cases h
    exact ⟨by simp [hstart], .inr ⟨by simp, fun hrel => ‹¬_› (hrel.1 _ _)⟩⟩

theorem ataCmdWriteSectors_drq {d d' : Drive σ} (h : ataCmdWriteSectors io d = .ok d') :
    d'.drq ∧ (d'.bytesToRw = BitVec.ofNat 16 sectorSize ∨
      d'.bytesToRw = d.bytesToRw ∧ ¬ io.Reliable) := by
  unfold ataCmdWriteSectors at h
  obtain ⟨⟨ok, d1⟩, hs, h⟩ := Except.bind_eq_ok.mp h
  obtain ⟨f, -, rfl, rfl⟩ := Drive.fseek_ok hs
  have hstart := drq_sectorCommandStart d
  simp only [Drive.drq_iff] at hstart ⊢
  cases h
  split
  · exact ⟨hstart, .inl rfl⟩
  · exact ⟨by simp [hstart], .inr ⟨by simp, fun hrel => ‹¬_› (hrel.1 _ _)⟩⟩

theorem commandWrite_drqInv {d d' : Drive σ} {cmd : BitVec 8} (h : commandWrite io d cmd = .ok d')
    (hd : d.DrqInv io.Reliable) : d'.DrqInv io.Reliable := by
  have hclear : Drive.DrqInv io.Reliable
      { d with error := 0, status := d.status &&& ~~~Status.err } := hd.congr rfl (by simp)
  unfold commandWrite ataHandleCmd at h
  split_ifs at h
  · cases h; exact .of_full rfl (by simp [ataCmdIdentify])
  · cases h; exact hclear.congr rfl (by simp [ataCmdInitializeDeviceParams])
  · obtain ⟨hdrq, hb⟩ := ataCmdReadSectors_drq h; exact hclear.of_command hdrq hb
  · obtain ⟨hdrq, hb⟩ := ataCmdWriteSectors_drq h; exact hclear.of_command hdrq hb
  · cases h; exact hclear

/-! ## DATA transfers -/

theorem Drive.fillBuf_toNat {d : Drive σ} {data : List (BitVec 8)} (h : d.copyFits data.length) :
    (d.fillBuf data h).bytesToRw.toNat = d.bytesToRw.toNat - data.length :=
  toNat_sub_ofNat _ h.2

/-- A transfer that takes bytes without emptying the sector and leaves the status alone. -/
theorem Drive.DrqInv.of_partial {P : Prop} {d d' : Drive σ} (hd : d.DrqInv P)
    (hstatus : d'.status = d.status) (hle : d'.bytesToRw.toNat ≤ d.bytesToRw.toNat)
    (hpos : d'.bytesToRw ≠ 0) : d'.DrqInv P := by
  have hpos' : 0 < d'.bytesToRw.toNat :=
    Nat.pos_of_ne_zero fun h0 => hpos (BitVec.eq_of_toNat_eq (by simp [h0]))
  refine ⟨le_trans hle hd.bytes_le, fun _ => ?_, fun _ _ => hpos'⟩
  simpa [hstatus] using hd.drq_of_pending (by omega)

theorem Drive.nextWriteSector_drqInv {P : Prop} (d : Drive σ) (h0 : d.bytesToRw = 0) :
    d.nextWriteSector.DrqInv P := by
  unfold Drive.nextWriteSector
  dsimp only
  split
  · exact .of_full rfl (by simp)
  · exact .of_idle h0 (by simp)

theorem dataWrite_drqInv {d d' : Drive σ} {data : List (BitVec 8)}
    (h : dataWrite io d data = .ok d') (hd : d.DrqInv io.Reliable) : d'.DrqInv io.Reliable := by
  unfold dataWrite at h
  split at h
  · rename_i hfit
    dsimp only at h
    split at h
    · obtain ⟨⟨ok, d2⟩, hw, h⟩ := Except.bind_eq_ok.mp h
      obtain ⟨f, -, rfl, rfl⟩ := ataWriteBuf_ok hw
      cases h
      have hn : Drive.DrqInv io.Reliable _ := Drive.nextWriteSector_drqInv _ ‹_›
      split
      · exact hn.congr rfl (by simp)
      · exact hn.congr rfl (by simp)
    · cases h
      exact hd.of_partial rfl (by rw [Drive.fillBuf_toNat]; omega) ‹_›
  · cases h

theorem Drive.nextReadSector_drqInv {d d' : Drive σ} (h0 : d.bytesToRw = 0)
    (h : d.nextReadSector io = .ok d') : d'.DrqInv io.Reliable := by
  unfold Drive.nextReadSector at h
  dsimp only at h
  split at h
  · obtain ⟨⟨ok, d2⟩, hr, h⟩ := Except.bind_eq_ok.mp h
    obtain ⟨g, -, rfl, rfl⟩ := ataReadBuf_ok hr
    cases h
    split <;> rename_i hok <;> simp only [hok, if_true, Bool.false_eq_true, if_false]
    · exact .of_full rfl (by simp)
    · exact .of_failed (by simpa using h0) fun hrel => hok (hrel.2 _ _)
  · cases h; exact .of_idle h0 (by simp)

theorem dataRead_drqInv {d d' : Drive σ} {size : Nat} {out : List (BitVec 8)}
    (h : dataRead io d size = .ok (out, d')) (hd : d.DrqInv io.Reliable) :
    d'.DrqInv io.Reliable := by
  unfold dataRead at h
  split at h
  · split at h
    · rename_i hfit
      dsimp only at h
      split at h
      · obtain ⟨d2, hn, heq⟩ := Except.map_eq_ok.mp h
        cases heq
        exact Drive.nextReadSector_drqInv ‹_› hn
      · cases h
        exact hd.of_partial rfl (by simp [toNat_sub_ofNat _ hfit.2]) ‹_›
    · cases h
  · cases h; exact hd

/-! ## Every step, every run -/

theorem softReset_drqInv {P : Prop} (d : Drive σ) : (softReset d).DrqInv P := by
  unfold softReset
  dsimp only
  split <;> exact .of_idle rfl (by simp)

theorem ctlWrite_drqInv {P : Prop} {d : Drive σ} (b : BitVec 8) (hd : d.DrqInv P) :
    (ctlWrite d b).DrqInv P := by
  unfold ctlWrite
  dsimp only
  split
  · exact softReset_drqInv _
  · exact hd.congr rfl Iff.rfl

theorem driveStep_drqInv {d d' : Drive σ} (h : DriveStep io d d') (hd : d.DrqInv io.Reliable) :
    d'.DrqInv io.Reliable := by
  cases h with
  | registers _ _ hbytes hstatus => exact hd.congr hbytes (by simp [hstatus])
  | control b => exact ctlWrite_drqInv b hd
  | command _ hc => exact commandWrite_drqInv hc hd
  | write _ hw => exact dataWrite_drqInv hw hd
  | read _ hr => exact dataRead_drqInv hr hd

/-- Every drive of every reachable state keeps the DRQ bookkeeping. -/
theorem reachable_drqInv {ata : AtaDev σ} (h : Reachable io ata) (i : Fin 2) :
    (ata.drive i).DrqInv io.Reliable :=
  Reachable.drive_induction _ (fun _ hb hs => .of_idle hb (by simp [hs]))
    (fun _ _ => driveStep_drqInv) h i

end Rvvm.Ata
