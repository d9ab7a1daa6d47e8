import Rvvm.Ata.Transfer

/-!
# What IDENTIFY reports

`ata_cmd_identify` fills the sector buffer with the identify data of the selected drive. Words
57-58 and 60-61 carry its size in sectors, low word first, saturated at `0xFFFFFFFF`
(`identifyCapacity_identifyBuf`). A guest that sends IDENTIFY and reads a sector through DATA,
in accesses of any sizes, gets exactly that buffer (`identify_reads`).

The size is the one `ata_init` stored, and `ata_init` measures both drives on the master's
stream. After it, both drives have the size of the master image (`ataInit_image`), so IDENTIFY
reports the master's size whichever drive DEVICE selects (`run_identify`).
-/

namespace Rvvm.Ata

variable {σ : Type} {io : Stdio σ}

/-- A byte written to DEVICE, at `ATA_REG_DEVICE << ATA_REG_SHIFT`: bit 4 selects the drive. -/
def deviceAccess (b : BitVec 8) : Access := .data 24#32 (.write [b])

/-- The 16-bit word `w` of identify data stored low byte first, as a driver reads it. -/
def identifyWordAt (bytes : List (BitVec 8)) (w : Nat) : Nat :=
  (bytes.getD (2 * w) 0).toNat + 2 ^ 8 * (bytes.getD (2 * w + 1) 0).toNat

/-- The 32-bit sector count a driver reads from words `w` and `w + 1`, low word first. -/
def identifyCapacity (bytes : List (BitVec 8)) (w : Nat) : Nat :=
  identifyWordAt bytes w + 2 ^ 16 * identifyWordAt bytes (w + 1)

/-! ## The identify data -/

theorem identifyWord_low {size w : Nat} (hw : w = 57 ∨ w = 60) :
    identifyWord size w =
      if size > 0xffffffff then 0xffff#16 else BitVec.ofNat 16 (size &&& 0xffff) := by
  rcases hw with rfl | rfl <;> rfl

theorem identifyWord_high {size w : Nat} (hw : w = 58 ∨ w = 61) :
    identifyWord size w = if size > 0xffffffff then 0xffff#16 else BitVec.ofNat 16 (size >>> 16) := by
  rcases hw with rfl | rfl <;> rfl

theorem identifyBuf_getD (size : Nat) {j : Nat} (hj : j < sectorSize) :
    ((identifyBuf size).bytes.getD j 0).toNat =
      (identifyWord size (j / 2)).toNat >>> (8 * (j % 2)) % 2 ^ 8 := by
  simp [identifyBuf, List.getElem?_range hj]

/-- Each word of the identify data reads back as `ata_cmd_identify` set it. -/
theorem identifyWordAt_identifyBuf (size : Nat) {w : Nat} (hw : 2 * w + 1 < sectorSize) :
    identifyWordAt (identifyBuf size).bytes w = (identifyWord size w).toNat := by
  have hlt := (identifyWord size w).isLt
  rw [identifyWordAt, identifyBuf_getD size (by omega), identifyBuf_getD size hw,
    show 2 * w / 2 = w by omega, show (2 * w + 1) / 2 = w by omega,
    show 2 * w % 2 = 0 by omega, show (2 * w + 1) % 2 = 1 by omega, Nat.shiftRight_eq_div_pow,
    Nat.shiftRight_eq_div_pow]
  omega

/-- Words 57-58 and 60-61 of the identify data of a drive of `size` sectors encode
`min size 0xFFFFFFFF`. -/
theorem identifyCapacity_identifyBuf (size : Nat) {w : Nat} (hw : w = 57 ∨ w = 60) :
    identifyCapacity (identifyBuf size).bytes w = min size 0xFFFFFFFF := by
  rw [identifyCapacity, identifyWordAt_identifyBuf size (by simp [sectorSize]; omega),
    identifyWordAt_identifyBuf size (by simp [sectorSize]; omega), identifyWord_low hw,
    identifyWord_high (by omega)]
  split_ifs with h
  · rw [Nat.min_eq_right (by omega)]; rfl
  · rw [Nat.min_eq_left (by omega), BitVec.toNat_ofNat, BitVec.toNat_ofNat,
      show size &&& 0xffff = size % 2 ^ 16 from Nat.and_pow_two_sub_one_eq_mod size 16,
      Nat.shiftRight_eq_div_pow]
    omega

/-! ## A guest's IDENTIFY -/

theorem step_device (ata : AtaDev σ) (b : BitVec 8) :
    step io ata (deviceAccess b) =
      .ok (Reply.done
        (({ ata with curdrive := if bitCheck b 4 then 1 else 0 } : AtaDev σ).setCur
          { ata.drive (if bitCheck b 4 then 1 else 0) with drive := b.setWidth 16 })) :=
  rfl

theorem commandWrite_identify (d : Drive σ) :
    commandWrite io d Cmd.identify =
      .ok (ataCmdIdentify { d with error := 0, status := d.status &&& ~~~Status.err }) :=
  rfl

/-- After IDENTIFY, DATA reads of any positive sizes adding up to a sector return the identify
data of the drive and end the transfer. -/
theorem identify_reads (io : Stdio σ) (d : Drive σ) {sizes : List Nat} (hpos : ∀ s ∈ sizes, 0 < s)
    (hsum : sizes.sum = sectorSize) :
    ∃ d', Drive.reads io (ataCmdIdentify d) sizes = .ok ((identifyBuf d.size).bytes, d') := by
  have hne : sizes ≠ [] := by rintro rfl; simp [sectorSize] at hsum
  have hbytes : (ataCmdIdentify d).bytesToRw.toNat = sectorSize := rfl
  have h : Drive.reads io (ataCmdIdentify d) (sizes ++ []) = _ :=
    reads_sector hpos hne [] (hsum.trans hbytes.symm) hbytes.le
  rw [List.append_nil] at h
  rw [h, nextReadSector_done (d := { ataCmdIdentify d with bytesToRw := 0 }) rfl, hbytes,
    Nat.sub_self, List.drop_zero]
  simp only [Except.ok_bind, Drive.reads, Except.map_ok', List.append_nil]
  exact ⟨_, rfl⟩

/-! ## `ata_init` on image files -/

theorem getImgSize_image {f : Image} (hf : f.bytes ≠ []) :
    getImgSize imageStdio (some f) = .ok (f.bytes.length, { f with pos := 0 }) := by
  have hlen : 0 < f.bytes.length := List.length_pos.mpr hf
  simp only [getImgSize, imageStdio]
  rw [if_neg (by omega), if_neg (by omega), Int.toNat_ofNat]

/-- `ata_init` on a master image with at least one byte succeeds, and gives both drives the
size of the master image, whatever the slave. -/
theorem ataInit_image {m : Image} (hm : m.bytes ≠ []) (slave : Option Image) :
    ∃ ata, ataInit imageStdio (some m) slave = .ok ata ∧ ata.curdrive = 0 ∧
      ∀ i, (ata.drive i).size = divRoundUp m.bytes.length sectorSize := by
  have hsize : divRoundUp m.bytes.length sectorSize ≠ 0 := by
    have := List.length_pos.mpr hm
    simp only [divRoundUp, sectorSize]
    omega
  unfold ataInit
  rw [if_neg (by simp), getImgSize_image hm, Except.ok_bind]
  dsimp only [Drive.zeroed]
  rw [if_neg hsize, getImgSize_image (f := { m with pos := 0 }) hm, Except.ok_bind]
  refine ⟨_, rfl, rfl, fun i => ?_⟩
  match i with
  | 0 => rfl
  | 1 => dsimp only [Matrix.cons_val_one, Matrix.head_cons]; split <;> rfl

/-- An access that `step` answers with `true` and no bytes adds nothing to what `serve` reads. -/
theorem serve_cons_done {ata ata' : AtaDev σ} {a : Access} (h : step io ata a = .ok (Reply.done ata'))
    (rest : List Access) : serve io ata (a :: rest) = serve io ata' rest := by
  rw [serve, h, Except.ok_bind]
  dsimp only [Reply.done]
  rcases serve io ata' rest with e | ⟨out, ata''⟩ <;> rfl

/-- IDENTIFY on the selected drive, then DATA reads of any positive sizes adding up to a sector,
read the identify data of that drive. -/
theorem serve_identify (io : Stdio σ) (ata : AtaDev σ) {sizes : List Nat} (hpos : ∀ s ∈ sizes, 0 < s)
    (hsum : sizes.sum = sectorSize) :
    ∃ ata', serve io ata (commandAccess Cmd.identify :: sizes.map fun s => .data 0#32 (.read s)) =
      .ok ((identifyBuf ata.cur.size).bytes, ata') ∧ ata'.curdrive = ata.curdrive := by
  obtain ⟨d', hreads⟩ := identify_reads io
    { ata.cur with error := 0, status := ata.cur.status &&& ~~~Status.err } hpos hsum
  rw [serve_cons_done (by rw [step_command, commandWrite_identify]; rfl), serve_reads,
    AtaDev.cur_setCur, hreads]
  exact ⟨_, rfl, rfl⟩

/-- After `ata_init` on a master image with at least one byte and any slave, a DEVICE write
selecting either drive, IDENTIFY and DATA reads of any positive sizes adding up to a sector
return the identify data of a drive of `ceil(n / 512)` sectors, `n` the length of the master
image, whichever drive was selected. -/
theorem run_identify {m : Image} (hm : m.bytes ≠ []) (slave : Option Image) (b : BitVec 8)
    (sizes : List Nat) (hpos : ∀ s ∈ sizes, 0 < s) (hsum : sizes.sum = sectorSize) :
    ∃ ata, run imageStdio (some m) slave
        (deviceAccess b :: commandAccess Cmd.identify :: sizes.map fun s => .data 0#32 (.read s)) =
        .ok ((identifyBuf (divRoundUp m.bytes.length sectorSize)).bytes, ata) ∧
      ata.curdrive = if bitCheck b 4 then 1 else 0 := by
  obtain ⟨ata, hinit, -, hsize⟩ := ataInit_image hm slave
  rw [run, hinit, Except.ok_bind, serve_cons_done (step_device ata b)]
  obtain ⟨ata', hserve, hcur⟩ := serve_identify imageStdio
    (({ ata with curdrive := if bitCheck b 4 then 1 else 0 } : AtaDev Image).setCur
      { ata.drive (if bitCheck b 4 then 1 else 0) with drive := b.setWidth 16 }) hpos hsum
  rw [AtaDev.cur_setCur] at hserve
  exact ⟨ata', by rw [hserve, ← hsize (if bitCheck b 4 then 1 else 0)], hcur⟩

/-- A 512-byte master and a 1024-byte slave: with the slave selected through DEVICE, IDENTIFY
read in 4-byte accesses reports 1 sector in words 57-58 and 60-61, the size of the master,
where the slave image holds 2 sectors. -/
theorem identify_slave_reports_master_size :
    let master : Image := ⟨List.replicate 512 0, 0⟩
    let slave : Image := ⟨List.replicate 1024 0, 0⟩
    (fun r => (r.2.curdrive, identifyCapacity r.1 57, identifyCapacity r.1 60)) <$>
        run imageStdio (some master) (some slave) (deviceAccess 0x10#8 ::
          commandAccess Cmd.identify :: (List.replicate 128 4).map fun s => .data 0#32 (.read s)) =
      .ok (1, 1, 1) ∧
      divRoundUp slave.bytes.length sectorSize = 2 := by
  intro master slave
  obtain ⟨ata, hrun, hcur⟩ := run_identify (m := master) (List.cons_ne_nil _ _) (some slave) 0x10#8
    (List.replicate 128 4) (by simp) (by simp [sectorSize])
  rw [hrun, Except.map_ok']
  dsimp only
  rw [hcur, identifyCapacity_identifyBuf _ (.inl rfl), identifyCapacity_identifyBuf _ (.inr rfl)]
  simp only [master, slave, List.length_replicate]
  exact ⟨rfl, rfl⟩

end Rvvm.Ata
