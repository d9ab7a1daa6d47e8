import Rvvm.Ata.Step

/-!
# Disk images as host files

The host side of the device is `stdio` on an image file. `imageStdio` is that interface for a
regular file as POSIX describes it: a seek always succeeds, even past the end; a read of a whole
sector succeeds when the sector lies inside the file and otherwise copies what is left and
fails; a write succeeds and extends the file, with zeros in any hole it leaves.
-/

namespace Rvvm.Ata

/-- An open image file: its bytes and the stream position. -/
structure Image where
  bytes : List (BitVec 8)
  pos : Nat

/-- The file after writing `data` at byte `pos`. -/
def writeAt (bytes : List (BitVec 8)) (pos : Nat) (data : List (BitVec 8)) : List (BitVec 8) :=
  bytes.take pos ++ List.replicate (pos - bytes.length) 0 ++ data ++ bytes.drop (pos + data.length)

/-- `fread(buf, SECTOR_SIZE, 1, fp)` on an image. -/
def Image.fread (f : Image) (buf : Sector) : Bool × Sector × Image :=
  if h : f.pos + sectorSize ≤ f.bytes.length then
    (true,
      ⟨(f.bytes.drop f.pos).take sectorSize, by
        simp only [List.length_take, List.length_drop]; omega⟩,
      { f with pos := f.pos + sectorSize })
  else
    (false,
      ⟨f.bytes.drop f.pos ++ buf.bytes.drop (f.bytes.length - f.pos), by
        simp only [List.length_append, List.length_drop, buf.length_eq]; omega⟩,
      { f with pos := max f.pos f.bytes.length })

/-- `stdio` on image files. -/
def imageStdio : Stdio Image where
  fseekSet f offset := (true, { f with pos := offset })
  fseekEnd f := { f with pos := f.bytes.length }
  ftell f := f.pos
  fread f buf := f.fread buf
  fwrite f buf := (true, ⟨writeAt f.bytes f.pos buf.bytes, f.pos + sectorSize⟩)

/-- The device `ata_init` builds for a one-byte master image and no slave. -/
def oneByteMaster : AtaDev Image :=
  match ataInit imageStdio (some ⟨[0], 0⟩) none with
  | .ok ata => ata
  | .error _ => ⟨fun _ => Drive.zeroed none, 0⟩

theorem ataInit_oneByteMaster : ataInit imageStdio (some ⟨[0], 0⟩) none = .ok oneByteMaster :=
  rfl

end Rvvm.Ata
