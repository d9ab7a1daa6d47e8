import Rvvm.Basic
import Mathlib.Data.Fin.VecNotation

/-!
# The state of the ATA device of `ata.c`

`struct ata_dev` holds two drives and the index of the selected one. A drive keeps its host
image stream, its size in sectors, the task-file registers and the 512-byte sector buffer
through which DATA accesses are served. Host `stdio` is the interface `Stdio σ` over an abstract
stream state `σ`, and a `FILE *` is an `Option σ` whose `none` is `NULL`.

Two things the device can do have no defined result in C: a `memcpy` that reaches outside
`buf`, and a `stdio` call on a `NULL` stream. The model answers `Fault` for both, so that a run
stops at the first of them.
-/

namespace Rvvm.Ata

/-! ## Constants -/

/-- `SECTOR_SIZE`. -/
def sectorSize : Nat := 512

/-- `ATA_REG_SHIFT`: registers sit on 4-byte boundaries of the windows. -/
def ataRegShift : Nat := 2

/-! The register numbers of the data window, `ATA_REG_DATA` to `ATA_REG_STATUS`, and of the
control window, `ATA_REG_CTL` and `ATA_REG_DRVADDR`. -/

namespace Reg
def data : Nat := 0
def err : Nat := 1
def nsect : Nat := 2
def lbal : Nat := 3
def lbam : Nat := 4
def lbah : Nat := 5
def device : Nat := 6
def status : Nat := 7
def ctl : Nat := 0
def drvaddr : Nat := 1
end Reg

/-! The flags of the STATUS register, `ATA_STATUS_*`, of the ERR register, `ATA_ERR_*`, and the
commands `ata_handle_cmd` knows, `ATA_CMD_*`. -/

namespace Status
def err : BitVec 8 := 1#8 <<< 0
def drq : BitVec 8 := 1#8 <<< 3
def srv : BitVec 8 := 1#8 <<< 4
def rdy : BitVec 8 := 1#8 <<< 6
end Status

namespace Err
def amnf : BitVec 16 := 1#16 <<< 0
def abrt : BitVec 16 := 1#16 <<< 2
def unc : BitVec 16 := 1#16 <<< 6
end Err

namespace Cmd
def identify : BitVec 8 := 0xEC#8
def initializeDeviceParams : BitVec 8 := 0x91#8
def readSectors : BitVec 8 := 0x20#8
def writeSectors : BitVec 8 := 0x30#8
end Cmd

/-- `DIV_ROUND_UP(x, d)`. -/
def divRoundUp (x d : Nat) : Nat := (x + d - 1) / d

/-! ## The sector buffer -/

/-- The buffer `uint8_t buf[SECTOR_SIZE]` of a drive. -/
structure Sector where
  bytes : List (BitVec 8)
  length_eq : bytes.length = sectorSize

/-- The zeroed buffer `calloc` gives. -/
def Sector.zeroed : Sector := ⟨List.replicate sectorSize 0, List.length_replicate _ _⟩

/-- `memcpy(buf + offset, data, size)` for a copy that stays inside the buffer. -/
def Sector.copyIn (buf : Sector) (offset : Nat) (data : List (BitVec 8))
    (h : offset + data.length ≤ sectorSize) : Sector :=
  ⟨buf.bytes.take offset ++ data ++ buf.bytes.drop (offset + data.length), by
    simp only [List.length_append, List.length_take, List.length_drop, buf.length_eq]
    omega⟩

/-- `memcpy(memory_data, buf + offset, size)`: the bytes a read copies out of the buffer. -/
def Sector.copyOut (buf : Sector) (offset size : Nat) : List (BitVec 8) :=
  (buf.bytes.drop offset).take size

/-! ## Host streams -/

/-- The host `stdio` calls the device makes, on a stream whose state is `σ`. Each call returns
what the C call reports together with the stream afterwards, so a host may let any call fail. -/
structure Stdio (σ : Type) where
  /-- `fseek(fp, offset, SEEK_SET)`: `true` when it did not return a negative value. -/
  fseekSet : σ → Nat → Bool × σ
  /-- `fseek(fp, 0, SEEK_END)`, whose result `get_img_size` ignores. -/
  fseekEnd : σ → σ
  /-- `ftell(fp)`. -/
  ftell : σ → Int
  /-- `fread(buf, SECTOR_SIZE, 1, fp)`: `true` when it returned `1`, and the buffer afterwards,
  which a short read may have filled in part. -/
  fread : σ → Sector → Bool × Sector × σ
  /-- `fwrite(buf, SECTOR_SIZE, 1, fp)`: `true` when it returned `1`. -/
  fwrite : σ → Sector → Bool × σ

/-- What has no defined result in the C code. -/
inductive Fault where
  /-- A `memcpy` between the access and `buf` reaching outside `buf`. -/
  | outOfBounds
  /-- A `stdio` call on a `NULL` stream. -/
  | nullStream
  /-- The `assert` of `ata_init` failing. -/
  | assertFailed
  deriving DecidableEq, Repr

/-! ## Drives -/

/-- One element of `drive[2]` in `struct ata_dev`. -/
structure Drive (σ : Type) where
  fp : Option σ
  /-- The image size in sectors. -/
  size : Nat
  bytesToRw : BitVec 16
  sectcount : BitVec 16
  lbal : BitVec 16
  lbam : BitVec 16
  lbah : BitVec 16
  drive : BitVec 16
  error : BitVec 16
  status : BitVec 8
  hobShift : BitVec 8
  buf : Sector

variable {σ : Type}

/-- A drive as `calloc` leaves it, with the stream `fp`. -/
def Drive.zeroed (fp : Option σ) : Drive σ :=
  ⟨fp, 0, 0, 0, 0, 0, 0, 0, 0, 0, 0, Sector.zeroed⟩

/-- `(status & ATA_STATUS_DRQ) != 0`: the drive has data to transfer. -/
def Drive.drq (d : Drive σ) : Prop := d.status &&& Status.drq ≠ 0

instance (d : Drive σ) : Decidable d.drq := inferInstanceAs (Decidable (_ ≠ _))

/-- The drive's stream, or `Fault.nullStream` when `fp` is `NULL`. -/
def Drive.stream (d : Drive σ) : Except Fault σ :=
  match d.fp with
  | some f => .ok f
  | none => .error .nullStream

/-- The `err:` exit of the sector commands, also taken when a sector transfer fails: `ERR` in
STATUS and `UNC` in the error register. -/
def Drive.setErrUnc (d : Drive σ) : Drive σ :=
  { d with status := d.status ||| Status.err, error := d.error ||| Err.unc }

/-- `struct ata_dev`. -/
structure AtaDev (σ : Type) where
  drive : Fin 2 → Drive σ
  curdrive : Fin 2

/-- `ata->drive[ata->curdrive]`. -/
def AtaDev.cur (ata : AtaDev σ) : Drive σ := ata.drive ata.curdrive

/-- Replace the selected drive. -/
def AtaDev.setCur (ata : AtaDev σ) (d : Drive σ) : AtaDev σ :=
  { ata with drive := Function.update ata.drive ata.curdrive d }

@[simp] theorem AtaDev.setCur_curdrive (ata : AtaDev σ) (d : Drive σ) :
    (ata.setCur d).curdrive = ata.curdrive := rfl

@[simp] theorem AtaDev.cur_setCur (ata : AtaDev σ) (d : Drive σ) : (ata.setCur d).cur = d := by
  simp [AtaDev.cur, AtaDev.setCur]

theorem AtaDev.setCur_drive (ata : AtaDev σ) (d : Drive σ) (i : Fin 2) :
    (ata.setCur d).drive i = if i = ata.curdrive then d else ata.drive i := by
  by_cases h : i = ata.curdrive <;> simp [AtaDev.setCur, Function.update, h]

end Rvvm.Ata
