import Rvvm.Ata.Device

/-!
# The commands and MMIO handlers of `ata.c`

The command functions `ata_cmd_*` and the buffer transfers `ata_read_buf` and `ata_write_buf`
only touch `ata->drive[ata->curdrive]`, so they are functions of that drive. The two handlers,
`ata_data_mmio_handler` and `ata_ctl_mmio_handler`, take the whole device, an offset into their
window and the access, and answer a `Reply`: the handler's `bool`, the bytes a read leaves in
`memory_data`, and the device afterwards. `ata_init` builds the first state.
-/

namespace Rvvm.Ata

variable {σ : Type}

/-! ## Stream calls on a drive -/

/-- `fseek(fp, offset, SEEK_SET)` on the drive's stream. -/
def Drive.fseek (io : Stdio σ) (d : Drive σ) (offset : Nat) : Except Fault (Bool × Drive σ) :=
  d.stream >>= fun f =>
  let (ok, f) := io.fseekSet f offset
  .ok (ok, { d with fp := some f })

/-- `ata_read_buf`: read the next sector of the image into `buf`; on success
`bytes_to_rw = SECTOR_SIZE`. -/
def ataReadBuf (io : Stdio σ) (d : Drive σ) : Except Fault (Bool × Drive σ) :=
  d.stream >>= fun f =>
  let (ok, buf, f) := io.fread f d.buf
  let d : Drive σ := { d with fp := some f, buf := buf }
  .ok (if ok then (true, { d with bytesToRw := BitVec.ofNat 16 sectorSize }) else (false, d))

/-- `ata_write_buf`: write `buf` to the image at the stream position. -/
def ataWriteBuf (io : Stdio σ) (d : Drive σ) : Except Fault (Bool × Drive σ) :=
  d.stream >>= fun f =>
  let (ok, f) := io.fwrite f d.buf
  .ok (ok, { d with fp := some f })

/-! ## Commands -/

/-- `ata_get_lba(ata, false)`, the 28-bit address: the low bytes of LBAL, LBAM and LBAH and the
low nibble of DEVICE. Every call passes `false`; the 48-bit branch is not modelled. -/
def ataGetLba (d : Drive σ) : Nat :=
  (bitCut d.lbal 0 8).toNat ||| (bitCut d.lbam 0 8).toNat <<< 8 |||
    (bitCut d.lbah 0 8).toNat <<< 16 ||| (bitCut d.drive 0 4).toNat <<< 24

/-- The words `ata_cmd_identify` puts in `id_buf` for a drive of `size` sectors; the words it
does not name are `0`. -/
def identifyWord (size : Nat) : Nat → BitVec 16
  | 0 => 1#16 <<< 6
  | 1 => 65535#16
  | 3 => 16#16
  | 6 => 63#16
  | 22 => 4#16
  | 49 => 1#16 <<< 9
  | 50 => 1#16 <<< 14
  | 51 => 4#16 <<< 8
  | 53 => 1#16 ||| 2#16
  | 54 => 65535#16
  | 55 => 16#16
  | 56 => 63#16
  | 57 | 60 => if size > 0xffffffff then 0xffff#16 else BitVec.ofNat 16 (size &&& 0xffff)
  | 58 | 61 => if size > 0xffffffff then 0xffff#16 else BitVec.ofNat 16 (size >>> 16)
  | 64 => 1#16 ||| 2#16
  | 67 => 1#16
  | 68 => 1#16
  | _ => 0#16

/-- `memcpy(buf, id_buf, sizeof(id_buf))` on a little-endian host: word `i` is stored low byte
first at bytes `2 i` and `2 i + 1`. -/
def identifyBuf (size : Nat) : Sector :=
  ⟨(List.range sectorSize).map fun j =>
    (identifyWord size (j / 2)).extractLsb' (8 * (j % 2)) 8, by simp⟩

/-- `ata_cmd_identify`. -/
def ataCmdIdentify (d : Drive σ) : Drive σ :=
  { d with buf := identifyBuf d.size, bytesToRw := BitVec.ofNat 16 sectorSize,
           status := Status.rdy ||| Status.srv ||| Status.drq, sectcount := 1 }

/-- `ata_cmd_initialize_device_params`: CHS translation is refused with `ERR` and `ABRT`. -/
def ataCmdInitializeDeviceParams (d : Drive σ) : Drive σ :=
  { d with status := d.status ||| Status.err, error := d.error ||| Err.abrt }

/-- The start shared by the two sector commands: a sector count of `0` means `256`, and `DRQ` and
`RDY` are raised before the image is touched. -/
def sectorCommandStart (d : Drive σ) : Drive σ :=
  let d : Drive σ := if d.sectcount = 0 then { d with sectcount := 256 } else d
  { d with status := d.status ||| (Status.drq ||| Status.rdy) }

/-- `ata_cmd_read_sectors`: seek to the first sector and read it into `buf`. -/
def ataCmdReadSectors (io : Stdio σ) (d : Drive σ) : Except Fault (Drive σ) :=
  let d := sectorCommandStart d
  d.fseek io (ataGetLba d * sectorSize) >>= fun (ok, d) =>
  if ok then
    ataReadBuf io d >>= fun (ok, d) => .ok (if ok then d else d.setErrUnc)
  else .ok d.setErrUnc

/-- `ata_cmd_write_sectors`: seek to the first sector and wait for a sector of data. -/
def ataCmdWriteSectors (io : Stdio σ) (d : Drive σ) : Except Fault (Drive σ) :=
  let d := sectorCommandStart d
  d.fseek io (ataGetLba d * sectorSize) >>= fun (ok, d) =>
  .ok (if ok then { d with bytesToRw := BitVec.ofNat 16 sectorSize } else d.setErrUnc)

/-- `ata_handle_cmd`: unknown commands are ignored. -/
def ataHandleCmd (io : Stdio σ) (d : Drive σ) (cmd : BitVec 8) : Except Fault (Drive σ) :=
  if cmd = Cmd.identify then .ok (ataCmdIdentify d)
  else if cmd = Cmd.initializeDeviceParams then .ok (ataCmdInitializeDeviceParams d)
  else if cmd = Cmd.readSectors then ataCmdReadSectors io d
  else if cmd = Cmd.writeSectors then ataCmdWriteSectors io d
  else .ok d

/-! ## The data window -/

/-- An access as a handler receives it: a read of `size` bytes, or a write of the bytes `data`,
whose length is the access size. -/
inductive MmioAccess where
  | read (size : Nat)
  | write (data : List (BitVec 8))

/-- The size of an access. -/
def MmioAccess.size : MmioAccess → Nat
  | .read size => size
  | .write data => data.length

/-- What a handler gives back: its `bool`, the bytes a read leaves in `memory_data` (`[]` for a
write or a refused access), and the device afterwards. -/
structure Reply (σ : Type) where
  ok : Bool
  out : List (BitVec 8)
  ata : AtaDev σ

/-- A handler returning `true` with nothing read. -/
def Reply.done (ata : AtaDev σ) : Reply σ := ⟨true, [], ata⟩

/-- A handler returning `true` after a one-byte read. -/
def Reply.byte (ata : AtaDev σ) (b : BitVec 8) : Reply σ := ⟨true, [b], ata⟩

/-- A handler refusing the access (`return false`), which leaves the device as it was. -/
def Reply.refuse (ata : AtaDev σ) : Reply σ := ⟨false, [], ata⟩

/-- The copy between the access and `buf` at `SECTOR_SIZE - bytes_to_rw` stays inside `buf`. -/
def Drive.copyFits (d : Drive σ) (size : Nat) : Prop :=
  d.bytesToRw.toNat ≤ sectorSize ∧ size ≤ d.bytesToRw.toNat

instance (d : Drive σ) (size : Nat) : Decidable (d.copyFits size) :=
  inferInstanceAs (Decidable (_ ∧ _))

theorem Drive.copyFits.end_le {d : Drive σ} {size : Nat} (h : d.copyFits size) :
    sectorSize - d.bytesToRw.toNat + size ≤ sectorSize := by
  unfold Drive.copyFits at h; omega

/-- `memcpy(buf + SECTOR_SIZE - bytes_to_rw, memory_data, size)` followed by
`bytes_to_rw -= size`, for a copy that stays inside `buf`. -/
def Drive.fillBuf (d : Drive σ) (data : List (BitVec 8)) (h : d.copyFits data.length) :
    Drive σ :=
  { d with buf := d.buf.copyIn (sectorSize - d.bytesToRw.toNat) data h.end_le,
           bytesToRw := d.bytesToRw - BitVec.ofNat 16 data.length }

/-- The end of a sector: drop `DRQ`, and raise it again with a fresh sector to transfer when
`--sectcount` is not `0`. This is the DATA write path; the read path refills `buf` instead. -/
def Drive.nextWriteSector (d : Drive σ) : Drive σ :=
  let d : Drive σ := { d with status := d.status &&& ~~~Status.drq, sectcount := d.sectcount - 1 }
  if d.sectcount ≠ 0 then
    { d with status := d.status ||| Status.drq, bytesToRw := BitVec.ofNat 16 sectorSize }
  else d

/-- A write to DATA on the selected drive: copy the bytes into `buf` at
`SECTOR_SIZE - bytes_to_rw`; when the sector is full, move to the next one and write `buf` to
the image. -/
def dataWrite (io : Stdio σ) (d : Drive σ) (data : List (BitVec 8)) : Except Fault (Drive σ) :=
  if h : d.copyFits data.length then
    let d := d.fillBuf data h
    if d.bytesToRw = 0 then
      ataWriteBuf io d.nextWriteSector >>= fun (ok, d) => .ok (if ok then d else d.setErrUnc)
    else .ok d
  else .error .outOfBounds

/-- The end of a sector on the DATA read path: drop `DRQ` and, when `--sectcount` is not `0`,
raise it again and read the next sector into `buf`. -/
def Drive.nextReadSector (io : Stdio σ) (d : Drive σ) : Except Fault (Drive σ) :=
  let d : Drive σ := { d with status := d.status &&& ~~~Status.drq, sectcount := d.sectcount - 1 }
  if d.sectcount ≠ 0 then
    ataReadBuf io { d with status := d.status ||| Status.drq } >>= fun (ok, d) =>
    .ok (if ok then d else d.setErrUnc)
  else .ok d

/-- A read of DATA on the selected drive: with data pending, copy `size` bytes out of `buf` at
`SECTOR_SIZE - bytes_to_rw`, and move to the next sector when this one is used up. Without data
pending the read gives zeros. -/
def dataRead (io : Stdio σ) (d : Drive σ) (size : Nat) :
    Except Fault (List (BitVec 8) × Drive σ) :=
  if d.bytesToRw ≠ 0 then
    if d.copyFits size then
      let out := d.buf.copyOut (sectorSize - d.bytesToRw.toNat) size
      let d : Drive σ := { d with bytesToRw := d.bytesToRw - BitVec.ofNat 16 size }
      if d.bytesToRw = 0 then (fun d => (out, d)) <$> d.nextReadSector io
      else .ok (out, d)
    else .error .outOfBounds
  else .ok (List.replicate size 0, d)

/-- A write to NSECT, LBAL, LBAM or LBAH: the 16-bit register shifts up a byte and takes the
written byte at the bottom, so it holds the last two bytes written. -/
def shiftIn (reg : BitVec 16) (b : BitVec 8) : BitVec 16 :=
  (reg <<< 8) ||| b.setWidth 16

/-- A read of NSECT, LBAL, LBAM or LBAH: the byte `hob_shift` selects. -/
def hobByte (reg : BitVec 16) (hobShift : BitVec 8) : BitVec 8 :=
  ((reg >>> hobShift.toNat) &&& 0xff#16).setWidth 8

/-- A write to STATUS, the command register: the error register and `ERR` are cleared before the
command runs. -/
def commandWrite (io : Stdio σ) (d : Drive σ) (cmd : BitVec 8) : Except Fault (Drive σ) :=
  ataHandleCmd io { d with error := 0, status := d.status &&& ~~~Status.err } cmd

/-- The `switch` of `ata_data_mmio_handler` on register `reg` of an access it accepted. For the
one-byte registers `*(uint8_t*) memory_data` is the first byte of the access. -/
def ataDataRegister (io : Stdio σ) (ata : AtaDev σ) : Nat → MmioAccess → Except Fault (Reply σ)
  | 0, .write data => (fun d => Reply.done (ata.setCur d)) <$> dataWrite io ata.cur data
  | 0, .read size => (fun (out, d) => ⟨true, out, ata.setCur d⟩) <$> dataRead io ata.cur size
  | 1, .write _ => .ok (Reply.done ata)
  | 1, .read _ => .ok (Reply.byte ata (ata.cur.error.setWidth 8))
  | 2, .write data =>
      .ok (Reply.done (ata.setCur { ata.cur with sectcount := shiftIn ata.cur.sectcount (data.headD 0) }))
  | 2, .read _ => .ok (Reply.byte ata (hobByte ata.cur.sectcount ata.cur.hobShift))
  | 3, .write data =>
      .ok (Reply.done (ata.setCur { ata.cur with lbal := shiftIn ata.cur.lbal (data.headD 0) }))
  | 3, .read _ => .ok (Reply.byte ata (hobByte ata.cur.lbal ata.cur.hobShift))
  | 4, .write data =>
      .ok (Reply.done (ata.setCur { ata.cur with lbam := shiftIn ata.cur.lbam (data.headD 0) }))
  | 4, .read _ => .ok (Reply.byte ata (hobByte ata.cur.lbam ata.cur.hobShift))
  | 5, .write data =>
      .ok (Reply.done (ata.setCur { ata.cur with lbah := shiftIn ata.cur.lbah (data.headD 0) }))
  | 5, .read _ => .ok (Reply.byte ata (hobByte ata.cur.lbah ata.cur.hobShift))
  | 6, .write data =>
      let ata := { ata with curdrive := if bitCheck (data.headD 0) 4 then 1 else 0 }
      .ok (Reply.done (ata.setCur { ata.cur with drive := (data.headD 0).setWidth 16 }))
  | 6, .read _ => .ok (Reply.byte ata ((ata.cur.drive ||| 1#16 <<< 5 ||| 1#16 <<< 7).setWidth 8))
  | 7, .write data => (fun d => Reply.done (ata.setCur d)) <$> commandWrite io ata.cur (data.headD 0)
  | 7, .read _ => .ok (Reply.byte ata ata.cur.status)
  | _, _ => .ok (Reply.done ata)

/-- `ata_data_mmio_handler`: misaligned offsets, and accesses wider than a byte to any register
but DATA, are refused. -/
def ataDataMmioHandler (io : Stdio σ) (ata : AtaDev σ) (offset : BitVec 32)
    (access : MmioAccess) : Except Fault (Reply σ) :=
  if offset &&& 3#32 ≠ 0 then .ok (Reply.refuse ata)
  else
    let reg := (offset >>> ataRegShift).toNat
    if access.size ≠ 1 ∧ reg ≠ Reg.data then .ok (Reply.refuse ata)
    else ataDataRegister io ata reg access

/-! ## The control window -/

/-- The soft reset of the device control register. -/
def softReset (d : Drive σ) : Drive σ :=
  let d : Drive σ := { d with bytesToRw := 0, lbal := 1, lbah := 0, lbam := 0, sectcount := 1, drive := 0 }
  if d.fp.isSome then { d with error := Err.amnf, status := Status.rdy ||| Status.srv }
  else { d with error := 0, status := 0 }

/-- A write to the device control register: bit 7 selects the high bytes for register reads,
bit 2 resets the drive. -/
def ctlWrite (d : Drive σ) (b : BitVec 8) : Drive σ :=
  let d : Drive σ := { d with hobShift := if bitCheck b 7 then 8 else 0 }
  if bitCheck b 2 then softReset d else d

/-- `ata_ctl_mmio_handler`. It makes no `stdio` call and cannot fault. -/
def ataCtlMmioHandler (ata : AtaDev σ) (offset : BitVec 32) (access : MmioAccess) : Reply σ :=
  if access.size ≠ 1 ∨ offset &&& 3#32 ≠ 0 then Reply.refuse ata
  else
    match (offset >>> ataRegShift).toNat, access with
    | 0, .read _ => Reply.byte ata ata.cur.status
    | 0, .write data => Reply.done (ata.setCur (ctlWrite ata.cur (data.headD 0)))
    | _, _ => Reply.done ata

/-! ## Initialisation -/

/-- `get_img_size`: the image size in bytes, `0` when `ftell` fails or the image is empty, and
the stream afterwards. -/
def getImgSize (io : Stdio σ) (fp : Option σ) : Except Fault (Nat × σ) :=
  match fp with
  | none => .error .nullStream
  | some f =>
    let f := io.fseekEnd f
    let size := io.ftell f
    if size < 0 then .ok (0, f)
    else if size = 0 then .ok (0, f)
    else .ok (size.toNat, (io.fseekSet f 0).2)

/-- `ata_init`. The slave's size is measured on `ata->drive[0].fp`, as the source has it. -/
def ataInit (io : Stdio σ) (master slave : Option σ) : Except Fault (AtaDev σ) :=
  if master.isNone ∧ slave.isNone then .error .assertFailed
  else
    getImgSize io master >>= fun (n, f) =>
    let d0 : Drive σ := { Drive.zeroed (some f) with size := divRoundUp n sectorSize }
    let d0 : Drive σ := if d0.size = 0 then { d0 with fp := none } else d0
    getImgSize io d0.fp >>= fun (n, f) =>
    let d0 : Drive σ := { d0 with fp := some f }
    let d1 : Drive σ := { Drive.zeroed slave with size := divRoundUp n sectorSize }
    let d1 : Drive σ := if d1.size = 0 then { d1 with fp := none } else d1
    .ok ⟨![d0, d1], 0⟩

/-! ## Guest accesses -/

/-- A guest access to one of the two windows `ata_init` registers. -/
inductive Access where
  | data (offset : BitVec 32) (access : MmioAccess)
  | ctl (offset : BitVec 32) (access : MmioAccess)

/-- The device's answer to a guest access. -/
def step (io : Stdio σ) (ata : AtaDev σ) : Access → Except Fault (Reply σ)
  | .data offset access => ataDataMmioHandler io ata offset access
  | .ctl offset access => .ok (ataCtlMmioHandler ata offset access)

end Rvvm.Ata
