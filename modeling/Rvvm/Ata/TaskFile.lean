import Rvvm.Ata.Faults
import Rvvm.Ata.Identify

/-!
# The task file as a driver loads it

A driver sets a command up through the registers of the data window. NSECT, LBAL, LBAM and LBAH
are 16-bit shift registers: a write moves the register up a byte and puts the byte written at the
bottom (`shiftIn_toNat`), and a one-byte read returns the byte `hob_shift` selects.

`ata_get_lba` reads the low bytes of LBAL, LBAM and LBAH and the low nibble of DEVICE, so the
writes of `loadTaskFile` select the drive and the address the driver asks for, whatever the
registers held before (`serve_loadTaskFile`). The sector commands count all 16 bits of
`sectcount`, so `loadTaskFile` writes a zero to NSECT before the count: a single write leaves the
byte written before it as the high byte. A soft reset loads the task file with one sector at
LBA 1, which a READ SECTORS right after it reads (`reset_then_read`).

Through the task file the device is the abstract disk of `Ata.Transfer`: sectors stored with
WRITE SECTORS read back as written with READ SECTORS at the same address, anywhere on the disk
(`write_then_read`).
-/

namespace Rvvm.Ata

variable {σ : Type} {io : Stdio σ}

/-! ## Register accesses -/

/-- A one-byte write of `b` to register `reg` of the data window, at `reg << ATA_REG_SHIFT`. -/
def regWrite (reg : Nat) (b : BitVec 8) : Access :=
  .data (BitVec.ofNat 32 (reg <<< ataRegShift)) (.write [b])

/-- A write of `b` to the device control register, at offset 0 of the control window. -/
def ctlAccess (b : BitVec 8) : Access := .ctl 0#32 (.write [b])

/-- The registers that keep the last two bytes written to them. -/
inductive TaskReg where
  | nsect
  | lbal
  | lbam
  | lbah

/-- `ATA_REG_NSECT` to `ATA_REG_LBAH`. -/
def TaskReg.num : TaskReg → Nat
  | .nsect => Reg.nsect
  | .lbal => Reg.lbal
  | .lbam => Reg.lbam
  | .lbah => Reg.lbah

/-- The field of `struct ata_drive` behind a register. -/
def TaskReg.get : TaskReg → Drive σ → BitVec 16
  | .nsect, d => d.sectcount
  | .lbal, d => d.lbal
  | .lbam, d => d.lbam
  | .lbah, d => d.lbah

/-- The drive with the field behind a register set to `v`. -/
def TaskReg.set : TaskReg → Drive σ → BitVec 16 → Drive σ
  | .nsect, d, v => { d with sectcount := v }
  | .lbal, d, v => { d with lbal := v }
  | .lbam, d, v => { d with lbam := v }
  | .lbah, d, v => { d with lbah := v }

/-- A one-byte write to a task-file register. -/
def TaskReg.write (r : TaskReg) (b : BitVec 8) : Access := regWrite r.num b

theorem step_taskRegWrite (ata : AtaDev σ) (r : TaskReg) (b : BitVec 8) :
    step io ata (r.write b) =
      .ok (Reply.done (ata.setCur (r.set ata.cur (shiftIn (r.get ata.cur) b)))) := by
  cases r <;> rfl

theorem step_ctlAccess (ata : AtaDev σ) (b : BitVec 8) :
    step io ata (ctlAccess b) = .ok (Reply.done (ata.setCur (ctlWrite ata.cur b))) :=
  rfl

/-! ## Shift registers -/

/-- A write to a task-file register keeps the old low byte as the high byte. -/
theorem shiftIn_toNat (reg : BitVec 16) (b : BitVec 8) :
    (shiftIn reg b).toNat = reg.toNat % 2 ^ 8 * 2 ^ 8 + b.toNat := by
  have hand : reg <<< 8 &&& b.setWidth 16 = 0#16 := by
    ext i
    simp only [BitVec.getLsbD_and, BitVec.getLsbD_shiftLeft, BitVec.getLsbD_setWidth,
      BitVec.getLsbD_zero]
    by_cases hi : (i : Nat) < 8
    · simp [show ¬ 8 ≤ (i : Nat) by omega]
    · simp [BitVec.getLsbD_ge b i (by omega)]
  have hb := b.isLt
  rw [shiftIn, ← BitVec.add_eq_or_of_and_eq_zero _ _ hand, BitVec.toNat_add_of_and_eq_zero hand,
    BitVec.toNat_shiftLeft, BitVec.toNat_setWidth, Nat.shiftLeft_eq]
  omega

/-! ## Loading a 28-bit command -/

/-- The DEVICE byte of a 28-bit command on drive `drv` at `lba`: bits 7-5 set (LBA mode), the
drive in bit 4, and bits 24-27 of the address in the low nibble. -/
def devByte (drv : Fin 2) (lba : Nat) : BitVec 8 :=
  BitVec.ofNat 8 (0xE0 + 16 * drv.val + lba / 2 ^ 24 % 16)

/-- The writes a driver makes to set up a command on drive `drv` for `count` sectors at `lba`:
DEVICE; a zero and then the count to NSECT, so that the count register holds the count alone;
and the three low bytes of the address to LBAL, LBAM and LBAH. -/
def loadTaskFile (drv : Fin 2) (lba count : Nat) : List Access :=
  [deviceAccess (devByte drv lba), TaskReg.nsect.write 0, TaskReg.nsect.write (BitVec.ofNat 8 count),
    TaskReg.lbal.write (BitVec.ofNat 8 lba), TaskReg.lbam.write (BitVec.ofNat 8 (lba / 2 ^ 8)),
    TaskReg.lbah.write (BitVec.ofNat 8 (lba / 2 ^ 16))]

theorem devByte_toNat (drv : Fin 2) (lba : Nat) :
    (devByte drv lba).toNat = 0xE0 + 16 * drv.val + lba / 2 ^ 24 % 16 := by
  have := drv.isLt
  rw [devByte, BitVec.toNat_ofNat]
  omega

/-- Bit 4 of the DEVICE byte selects `drv`. -/
theorem devByte_select (drv : Fin 2) (lba : Nat) :
    (if bitCheck (devByte drv lba) 4 then 1 else 0 : Fin 2) = drv := by
  have hd := devByte_toNat drv lba
  rw [bitCheck, BitVec.getLsbD, Nat.testBit_to_div_mod, hd]
  match drv with
  | 0 => simp; omega
  | 1 => simp; omega

theorem bitCut_zero_toNat {w : Nat} (val : BitVec w) {bits : Nat} (h : bits ≤ w) :
    (bitCut val 0 bits).toNat = val.toNat % 2 ^ bits := by
  have hpos := Nat.two_pow_pos bits
  have hle := Nat.pow_le_pow_right (show 0 < 2 by omega) h
  rw [bitCut, BitVec.toNat_and, BitVec.ushiftRight_zero, BitVec.toNat_ofNat,
    Nat.mod_eq_of_lt (show 2 ^ bits - 1 < 2 ^ w by omega), Nat.and_pow_two_sub_one_eq_mod]

/-- An `|` of bit fields that do not overlap is their sum. -/
theorem or_shiftLeft_eq_add {a b n : Nat} (ha : a < 2 ^ n) : a ||| b <<< n = 2 ^ n * b + a := by
  apply Nat.eq_of_testBit_eq
  intro i
  rw [Nat.testBit_or, Nat.testBit_shiftLeft, Nat.testBit_mul_pow_two_add _ ha]
  by_cases hi : i < n
  · simp [hi]
  · have hlt : a < 2 ^ i := lt_of_lt_of_le ha (Nat.pow_le_pow_right (by omega) (by omega))
    simp [hi, Nat.testBit_lt_two_pow hlt, show n ≤ i by omega]

/-- `ata_get_lba(ata, false)` as a number: the low bytes of LBAL, LBAM and LBAH, then the low
nibble of DEVICE. -/
theorem ataGetLba_eq (d : Drive σ) :
    ataGetLba d = d.lbal.toNat % 2 ^ 8 + 2 ^ 8 * (d.lbam.toNat % 2 ^ 8) +
      2 ^ 16 * (d.lbah.toNat % 2 ^ 8) + 2 ^ 24 * (d.drive.toNat % 2 ^ 4) := by
  rw [ataGetLba, bitCut_zero_toNat _ (by omega), bitCut_zero_toNat _ (by omega),
    bitCut_zero_toNat _ (by omega), bitCut_zero_toNat _ (by omega),
    or_shiftLeft_eq_add (n := 8) (by omega), or_shiftLeft_eq_add (n := 16) (by omega),
    or_shiftLeft_eq_add (n := 24) (by omega)]
  omega

/-- Whatever the registers held, the writes of `loadTaskFile` select drive `drv`, make
`ata_get_lba` return `lba` modulo `2^28` and the count register hold `count` modulo 256, and
change nothing else in the device. -/
theorem serve_loadTaskFile (ata : AtaDev σ) (drv : Fin 2) (lba count : Nat) :
    ∃ d, serve io ata (loadTaskFile drv lba count) = .ok ([], ⟨Function.update ata.drive drv d, drv⟩) ∧
      d = { ata.drive drv with
              drive := d.drive, sectcount := d.sectcount, lbal := d.lbal, lbam := d.lbam,
              lbah := d.lbah } ∧
      ataGetLba d = lba % 2 ^ 28 ∧ d.sectcount.toNat = count % 2 ^ 8 := by
  refine ⟨{ ata.drive drv with
      drive := (devByte drv lba).setWidth 16,
      sectcount := shiftIn (shiftIn (ata.drive drv).sectcount 0) (BitVec.ofNat 8 count),
      lbal := shiftIn (ata.drive drv).lbal (BitVec.ofNat 8 lba),
      lbam := shiftIn (ata.drive drv).lbam (BitVec.ofNat 8 (lba / 2 ^ 8)),
      lbah := shiftIn (ata.drive drv).lbah (BitVec.ofNat 8 (lba / 2 ^ 16)) }, ?_, rfl, ?_, ?_⟩
  · rw [loadTaskFile, serve_cons_done (step_device ata _), devByte_select,
      serve_cons_done (step_taskRegWrite _ _ _), serve_cons_done (step_taskRegWrite _ _ _),
      serve_cons_done (step_taskRegWrite _ _ _), serve_cons_done (step_taskRegWrite _ _ _),
      serve_cons_done (step_taskRegWrite _ _ _)]
    simp only [AtaDev.cur_setCur, AtaDev.setCur_setCur, TaskReg.get, TaskReg.set, serve]
    rfl
  · rw [ataGetLba_eq]
    simp only [shiftIn_toNat, BitVec.toNat_setWidth, devByte_toNat, BitVec.toNat_ofNat]
    omega
  · simp only [shiftIn_toNat, BitVec.toNat_ofNat, show (0 : BitVec 8).toNat = 0 from rfl]
    omega

/-! ## After a soft reset -/

theorem softReset_sectcount (d : Drive σ) : (softReset d).sectcount = 1 := by
  unfold softReset; dsimp only; split <;> rfl

theorem ataGetLba_softReset (d : Drive σ) : ataGetLba (softReset d) = 1 := by
  unfold softReset; dsimp only; split <;> simp [ataGetLba_eq]

/-- A soft reset loads the task file with one sector at LBA 1 (`lbal = 1`, "sectors start from
1"), so a READ SECTORS right after it, with no task file loaded, reads the image's second
sector. -/
theorem reset_then_read {ata : AtaDev Image} {f : Image} (hfp : ata.cur.fp = some f)
    {c : BitVec 8} (hreset : bitCheck c 2 = true) {sizes : List Nat} (hpos : ∀ s ∈ sizes, 0 < s)
    (hsum : sizes.sum = sectorSize) (hrange : 2 * sectorSize ≤ f.bytes.length) :
    ∃ ata', serve imageStdio ata (ctlAccess c :: commandAccess Cmd.readSectors ::
        sizes.map fun s => .data 0#32 (.read s)) = .ok (Disk.read f.bytes 1 1, ata') ∧
      ata'.cur.bytesToRw = 0 ∧ ¬ ata'.cur.drq := by
  have hd : ctlWrite ata.cur c =
      softReset { ata.cur with hobShift := if bitCheck c 7 then 8 else 0 } := by
    rw [ctlWrite, if_pos hreset]
  have hfp1 : (ata.setCur (ctlWrite ata.cur c)).cur.fp = some f := by
    rw [AtaDev.cur_setCur, ctlWrite_fp, hfp]
  have hsect : (ata.setCur (ctlWrite ata.cur c)).cur.sectcount = 1 := by
    rw [AtaDev.cur_setCur, hd, softReset_sectcount]
  have hlba : ataGetLba (ata.setCur (ctlWrite ata.cur c)).cur = 1 := by
    rw [AtaDev.cur_setCur, hd, ataGetLba_softReset]
  obtain ⟨ata', hserve, -, hbytes, hdrq⟩ := @readSectors_refines _ _ hfp1 (by rw [hsect]; decide)
    [sizes] (by rw [hsect]; rfl) (fun g hg => List.mem_singleton.mp hg ▸ ⟨hpos, hsum⟩)
    (by rw [hlba]; exact hrange)
  rw [hlba] at hserve
  refine ⟨ata', ?_, hbytes, hdrq⟩
  rw [serve_cons_done (step_ctlAccess ata c)]
  simpa only [List.flatten_cons, List.flatten_nil, List.append_nil, List.length_singleton]
    using hserve

/-- A device whose drives share a two-sector image of sevens. -/
def twoSectorDevice : AtaDev Image := ⟨fun _ => Drive.zeroed (some ⟨List.replicate 1024 7, 0⟩), 0⟩

theorem reset_then_read_second_sector :
    twoSectorDevice.cur.fp = some ⟨List.replicate 1024 7, 0⟩ ∧ bitCheck (4#8) 2 = true ∧
      (∀ s ∈ [sectorSize], 0 < s) ∧ [sectorSize].sum = sectorSize ∧
      2 * sectorSize ≤ (List.replicate 1024 (7 : BitVec 8)).length ∧
      ∃ ata', serve imageStdio twoSectorDevice (ctlAccess 4#8 :: commandAccess Cmd.readSectors ::
          [sectorSize].map fun s => .data 0#32 (.read s)) =
          .ok (Disk.read (List.replicate 1024 7) 1 1, ata') ∧
        ata'.cur.bytesToRw = 0 ∧ ¬ ata'.cur.drq :=
  have hpos : ∀ s ∈ [sectorSize], 0 < s := by simp [sectorSize]
  have hsum : [sectorSize].sum = sectorSize := by simp
  have hrange : 2 * sectorSize ≤ (List.replicate 1024 (7 : BitVec 8)).length := by
    rw [List.length_replicate]; decide
  ⟨rfl, rfl, hpos, hsum, hrange,
    @reset_then_read twoSectorDevice ⟨List.replicate 1024 7, 0⟩ rfl (4#8) rfl [sectorSize] hpos hsum
      hrange⟩

/-! ## Sectors written read back -/

/-- Serving one list of accesses after another. -/
theorem serve_append {ata ata' : AtaDev σ} {as : List Access} {out : List (BitVec 8)}
    (h : serve io ata as = .ok (out, ata')) (bs : List Access) :
    serve io ata (as ++ bs) = (fun (out', ata'') => (out ++ out', ata'')) <$> serve io ata' bs := by
  induction as generalizing ata out with
  | nil =>
    cases h
    rw [List.nil_append]
    rcases serve io ata' bs with e | ⟨out', ata''⟩ <;> rfl
  | cons a as ih =>
    obtain ⟨r, hr, hs⟩ := Except.bind_eq_ok.mp h
    obtain ⟨⟨out1, ata1⟩, hs, heq⟩ := Except.map_eq_ok.mp hs
    cases heq
    rw [List.cons_append, serve, hr, Except.ok_bind, ih hs]
    rcases serve io ata' bs with e | ⟨out', ata''⟩ <;> simp

/-- The bytes `writeAt` puts at `pos` are there to read. -/
theorem writeAt_drop_take (bytes : List (BitVec 8)) (pos : Nat) (data : List (BitVec 8)) :
    ((writeAt bytes pos data).drop pos).take data.length = data := by
  have hP : (bytes.take pos ++ List.replicate (pos - bytes.length) 0).length = pos := by
    simp only [List.length_append, List.length_take, List.length_replicate]; omega
  rw [writeAt, List.append_assoc, List.drop_left' hP, List.take_left' rfl]

theorem le_length_writeAt (bytes : List (BitVec 8)) (pos : Nat) (data : List (BitVec 8)) :
    pos + data.length ≤ (writeAt bytes pos data).length := by
  simp only [writeAt, List.length_append, List.length_take, List.length_replicate]; omega

theorem length_flatten_sectors {secs : List (List (BitVec 8))}
    (hlen : ∀ s ∈ secs, s.length = sectorSize) : secs.flatten.length = secs.length * sectorSize := by
  induction secs with
  | nil => rfl
  | cons s secs ih =>
    rw [List.flatten_cons, List.length_append, hlen s (List.mem_cons_self _ _),
      ih fun t ht => hlen t (List.mem_cons_of_mem _ ht), List.length_cons, Nat.succ_mul, Nat.add_comm]

/-- The abstract disk reads back the sectors written to it. -/
theorem Disk.read_write_same (bytes : List (BitVec 8)) (lba : Nat) {secs : List (List (BitVec 8))}
    (hlen : ∀ s ∈ secs, s.length = sectorSize) :
    Disk.read (Disk.write bytes lba secs) lba secs.length = secs.flatten := by
  rw [Disk.read, Disk.write, ← length_flatten_sectors hlen, writeAt_drop_take]

/-- After `loadTaskFile` for a count from 1 to 256, the count register holds what READ SECTORS
and WRITE SECTORS read as that count. -/
theorem loaded_count {d : Drive σ} {count : Nat} (hcnt : d.sectcount.toNat = count % 2 ^ 8)
    (hcount : 0 < count ∧ count ≤ 256) :
    d.sectcount.toNat < 256 ∧
      count = if (d.sectcount.setWidth 8).toNat = 0 then 256 else (d.sectcount.setWidth 8).toNat := by
  rw [BitVec.toNat_setWidth, hcnt]
  refine ⟨by omega, ?_⟩
  split <;> omega

/-- On a drive with an image, a driver that loads the task file for sectors `secs` at `lba`,
writes them with WRITE SECTORS, loads the task file again and reads as many sectors with READ
SECTORS, in DATA reads of any positive sizes adding up to a sector each, reads back the bytes it
wrote, wherever `lba` lies, past the end of the image included. -/
theorem write_then_read {ata : AtaDev Image} {drv : Fin 2} {f : Image}
    (hfp : (ata.drive drv).fp = some f) (lba : Nat) {secs : List (List (List (BitVec 8)))}
    (hcount : 0 < secs.length ∧ secs.length ≤ 256)
    (hsecs : ∀ g ∈ secs, (∀ b ∈ g, b ≠ []) ∧ g.flatten.length = sectorSize)
    {reads : List (List Nat)} (hreads : reads.length = secs.length)
    (hsizes : ∀ g ∈ reads, (∀ s ∈ g, 0 < s) ∧ g.sum = sectorSize) :
    ∃ ata', serve imageStdio ata
        (loadTaskFile drv lba secs.length ++ commandAccess Cmd.writeSectors ::
          secs.flatten.map (fun b => .data 0#32 (.write b)) ++
          loadTaskFile drv lba secs.length ++ commandAccess Cmd.readSectors ::
          reads.flatten.map fun s => .data 0#32 (.read s)) =
        .ok ((secs.map List.flatten).flatten, ata') ∧
      ata'.curdrive = drv ∧ ata'.cur.bytesToRw = 0 ∧ ¬ ata'.cur.drq := by
  -- the first load, then WRITE SECTORS and its DATA writes
  obtain ⟨d1, hload1, hframe1, hlba1, hcnt1⟩ :=
    @serve_loadTaskFile _ imageStdio ata drv lba secs.length
  have hfp1 : d1.fp = some f := by rw [hframe1]; exact hfp
  obtain ⟨hlt1, hlen1⟩ := loaded_count hcnt1 hcount
  obtain ⟨ata2, hwrite, hcur2, himage, -, -⟩ :=
    @writeSectors_refines ⟨Function.update ata.drive drv d1, drv⟩ f
      (by simpa [AtaDev.cur] using hfp1) (by simpa [AtaDev.cur] using hlt1) secs
      (by simpa [AtaDev.cur] using hlen1) hsecs
  simp only [AtaDev.cur, Function.update_same, hlba1] at hcur2 himage
  obtain ⟨f2, hfp2, hbytes2⟩ := Option.map_eq_some'.mp himage
  -- the second load, then READ SECTORS and its DATA reads
  obtain ⟨d3, hload2, hframe3, hlba3, hcnt3⟩ :=
    @serve_loadTaskFile _ imageStdio ata2 drv lba secs.length
  have hfp3 : d3.fp = some f2 := by rw [hframe3, ← hcur2]; exact hfp2
  obtain ⟨hlt3, hlen3⟩ := loaded_count hcnt3 hcount
  have hflat : ∀ s ∈ secs.map List.flatten, s.length = sectorSize := by
    simpa using fun g hg => (hsecs g hg).2
  have hrange : (ataGetLba d3 + reads.length) * sectorSize ≤ f2.bytes.length := by
    have := le_length_writeAt f.bytes (lba % 2 ^ 28 * sectorSize) (secs.map List.flatten).flatten
    rw [length_flatten_sectors hflat, List.length_map] at this
    rw [hbytes2, Disk.write, hlba3, hreads, Nat.add_mul]
    exact this
  obtain ⟨ata4, hread, hcur4, hb4, hdrq4⟩ :=
    @readSectors_refines ⟨Function.update ata2.drive drv d3, drv⟩ f2
      (by simpa [AtaDev.cur] using hfp3) (by simpa [AtaDev.cur] using hlt3) reads
      (by simpa [AtaDev.cur, hreads] using hlen3) hsizes (by simpa [AtaDev.cur] using hrange)
  refine ⟨ata4, ?_, hcur4, hb4, hdrq4⟩
  rw [serve_append (serve_append (serve_append hload1 _ |>.trans (by rw [hwrite]; rfl)) _
    |>.trans (by rw [hload2]; rfl)) _, hread]
  simp only [AtaDev.cur, Function.update_same, hlba3, hreads, hbytes2, List.nil_append,
    Except.map_ok']
  rw [← List.length_map secs List.flatten, Disk.read_write_same _ _ hflat]

/-- On the one-byte image, one sector of sevens written at LBA 3, past the end of the image,
reads back. -/
theorem write_then_read_past_end :
    let secs : List (List (List (BitVec 8))) := [[List.replicate 512 7]]
    (oneByteMaster.drive 0).fp = some ⟨[0], 0⟩ ∧
    ∃ ata', serve imageStdio oneByteMaster
        (loadTaskFile 0 3 secs.length ++ commandAccess Cmd.writeSectors ::
          secs.flatten.map (fun b => .data 0#32 (.write b)) ++
          loadTaskFile 0 3 secs.length ++ commandAccess Cmd.readSectors ::
          [[512]].flatten.map fun s => .data 0#32 (.read s)) =
        .ok ((secs.map List.flatten).flatten, ata') ∧
      ata'.curdrive = 0 ∧ ata'.cur.bytesToRw = 0 ∧ ¬ ata'.cur.drq :=
  ⟨rfl, write_then_read rfl 3 (by decide)
    (by
      simp only [List.mem_singleton, forall_eq, List.flatten_cons, List.flatten_nil,
        List.append_nil, List.length_replicate]
      exact ⟨List.ne_nil_of_length_pos (by rw [List.length_replicate]; decide), rfl⟩)
    rfl (by simp [sectorSize])⟩

end Rvvm.Ata
