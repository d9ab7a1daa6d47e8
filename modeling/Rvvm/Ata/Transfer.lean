import Rvvm.Ata.Image
import Rvvm.Ata.Drq

/-!
# Sector transfers refine an abstract disk

Seen from the guest, a drive with an image is a disk of 512-byte sectors: `Disk.read` and
`Disk.write`. `readSectors_refines` and `writeSectors_refines` run READ SECTORS and WRITE SECTORS
on an image file, followed by the DATA accesses of their transfer, and show that they read and
write exactly the sectors `ata_get_lba` and the sector count name. `step_image` says that no
other access writes the image, except a DATA write that fills the sector buffer: the device
writes it out whatever command set the transfer up, so DATA writes after IDENTIFY reach the
image too (`identify_then_data_write`). `ata_refines_disk` states the three together.
-/

namespace Rvvm.Ata

/-! ## The abstract disk -/

/-- Sectors `lba` to `lba + n - 1` of an image. -/
def Disk.read (bytes : List (BitVec 8)) (lba n : Nat) : List (BitVec 8) :=
  (bytes.drop (lba * sectorSize)).take (n * sectorSize)

/-- The image with `sectors` stored one after another from sector `lba` on. -/
def Disk.write (bytes : List (BitVec 8)) (lba : Nat) (sectors : List (List (BitVec 8))) :
    List (BitVec 8) :=
  writeAt bytes (lba * sectorSize) sectors.flatten

theorem Disk.read_add (bytes : List (BitVec 8)) (lba n : Nat) :
    Disk.read bytes lba (1 + n) = Disk.read bytes lba 1 ++ Disk.read bytes (lba + 1) n := by
  simp only [Disk.read, Nat.add_mul, List.take_add, List.drop_drop, Nat.one_mul]

/-- Two writes, the second where the first ended, are one write. -/
theorem writeAt_writeAt (bytes : List (BitVec 8)) (pos : Nat) (x y : List (BitVec 8)) :
    writeAt (writeAt bytes pos x) (pos + x.length) y = writeAt bytes pos (x ++ y) := by
  unfold writeAt
  generalize hP : bytes.take pos ++ List.replicate (pos - bytes.length) 0 = P
  have hlen : (P ++ x).length = pos + x.length := by
    rw [← hP]; simp only [List.length_append, List.length_take, List.length_replicate]; omega
  rw [List.take_left' hlen, List.drop_append_eq_append_drop,
    List.drop_eq_nil_of_le (show (P ++ x).length ≤ pos + x.length + y.length by omega), hlen,
    List.drop_drop, Nat.sub_eq_zero_of_le (by simp only [List.length_append] at hlen ⊢; omega)]
  simp only [List.replicate_zero, List.append_nil, List.nil_append, List.append_assoc,
    List.length_append]
  congr 4
  omega

/-! ## Accesses to the DATA and command registers -/

/-- A command written to the command register, at `ATA_REG_STATUS << ATA_REG_SHIFT`. -/
def commandAccess (cmd : BitVec 8) : Access := .data 28#32 (.write [cmd])

variable {σ : Type} {io : Stdio σ}

theorem step_command (ata : AtaDev σ) (cmd : BitVec 8) :
    step io ata (commandAccess cmd) =
      (fun d => Reply.done (ata.setCur d)) <$> commandWrite io ata.cur cmd :=
  rfl

@[simp] theorem AtaDev.setCur_setCur (ata : AtaDev σ) (d d' : Drive σ) :
    (ata.setCur d).setCur d' = ata.setCur d' := by
  simp [AtaDev.setCur]

@[simp] theorem AtaDev.setCur_cur (ata : AtaDev σ) : ata.setCur ata.cur = ata := by
  simp [AtaDev.setCur, AtaDev.cur]

/-- DATA reads of the given sizes on a drive, one after another. -/
def Drive.reads (io : Stdio σ) : Drive σ → List Nat → Except Fault (List (BitVec 8) × Drive σ)
  | d, [] => .ok ([], d)
  | d, s :: sizes => dataRead io d s >>= fun (out, d) =>
      (fun (out', d) => (out ++ out', d)) <$> Drive.reads io d sizes

/-- DATA writes of the given chunks on a drive, one after another. -/
def Drive.writes (io : Stdio σ) : Drive σ → List (List (BitVec 8)) → Except Fault (Drive σ)
  | d, [] => .ok d
  | d, data :: chunks => dataWrite io d data >>= fun d => Drive.writes io d chunks

/-- Guest reads of DATA act on the selected drive alone. -/
theorem serve_reads (ata : AtaDev σ) (sizes : List Nat) :
    serve io ata (sizes.map fun s => .data 0#32 (.read s)) =
      (fun (out, d) => (out, ata.setCur d)) <$> Drive.reads io ata.cur sizes := by
  induction sizes generalizing ata with
  | nil => simp [serve, Drive.reads]
  | cons s sizes ih =>
    simp only [List.map_cons, serve, step_dataRead, Drive.reads]
    rcases dataRead io ata.cur s with e | ⟨out, d⟩
    · rfl
    · simp only [Except.map_ok', Except.ok_bind, ih, AtaDev.cur_setCur]
      rcases Drive.reads io d sizes with e | ⟨out', d'⟩ <;> simp

/-- Guest writes of DATA act on the selected drive alone. -/
theorem serve_writes (ata : AtaDev σ) (chunks : List (List (BitVec 8))) :
    serve io ata (chunks.map fun b => .data 0#32 (.write b)) =
      (fun d => ([], ata.setCur d)) <$> Drive.writes io ata.cur chunks := by
  induction chunks generalizing ata with
  | nil => simp [serve, Drive.writes]
  | cons b chunks ih =>
    simp only [List.map_cons, serve, step_dataWrite, Drive.writes]
    rcases dataWrite io ata.cur b with e | d
    · rfl
    · simp only [Except.map_ok', Except.ok_bind, ih, AtaDev.cur_setCur, Reply.done]
      rcases Drive.writes io d chunks with e | d' <;> simp

/-! ## Reading a sector -/

theorem dataRead_within {d : Drive σ} {s : Nat} (hlt : s < d.bytesToRw.toNat)
    (hle : d.bytesToRw.toNat ≤ sectorSize) :
    dataRead io d s = .ok (d.buf.copyOut (sectorSize - d.bytesToRw.toNat) s,
      { d with bytesToRw := d.bytesToRw - BitVec.ofNat 16 s }) := by
  have hne : d.bytesToRw ≠ 0 := fun h => by simp [h] at hlt
  have hrest : d.bytesToRw - BitVec.ofNat 16 s ≠ 0 := fun h => by
    have := toNat_sub_ofNat d.bytesToRw hlt.le
    rw [h] at this
    simp at this
    omega
  unfold dataRead
  rw [if_pos hne, if_pos (show d.copyFits s from ⟨hle, hlt.le⟩)]
  exact if_neg hrest

theorem dataRead_last {d : Drive σ} {s : Nat} (hs : 0 < s) (heq : d.bytesToRw.toNat = s)
    (hle : s ≤ sectorSize) :
    dataRead io d s = (fun d' => (d.buf.bytes.drop (sectorSize - s), d')) <$>
      Drive.nextReadSector io { d with bytesToRw := 0 } := by
  have hne : d.bytesToRw ≠ 0 := fun h => by simp [h] at heq; omega
  have hzero : d.bytesToRw - BitVec.ofNat 16 s = 0 :=
    BitVec.eq_of_toNat_eq (by rw [toNat_sub_ofNat _ heq.ge]; simp [heq])
  have htake : (d.buf.bytes.drop (sectorSize - s)).take s = d.buf.bytes.drop (sectorSize - s) :=
    List.take_of_length_le (by simp [d.buf.length_eq]; omega)
  unfold dataRead
  rw [if_pos hne, if_pos (show d.copyFits s from ⟨heq ▸ hle, heq.ge⟩)]
  simp only [hzero, if_true, Sector.copyOut, heq, htake]

/-- DATA reads whose sizes add up to what is left of the sector return the rest of `buf`, and
the last of them ends the sector; the reads after it start from there. -/
theorem reads_sector {sizes : List Nat} (hpos : ∀ s ∈ sizes, 0 < s) (hne : sizes ≠ [])
    (rest : List Nat) :
    ∀ {d : Drive σ}, sizes.sum = d.bytesToRw.toNat → d.bytesToRw.toNat ≤ sectorSize →
      Drive.reads io d (sizes ++ rest) =
        Drive.nextReadSector io { d with bytesToRw := 0 } >>= fun d' =>
          (fun (out, d'') => (d.buf.bytes.drop (sectorSize - d.bytesToRw.toNat) ++ out, d'')) <$>
            Drive.reads io d' rest := by
  induction sizes with
  | nil => exact absurd rfl hne
  | cons s sizes ih =>
    intro d hsum hle
    rcases sizes with _ | ⟨s', sizes⟩
    · simp only [List.sum_cons, List.sum_nil, Nat.add_zero] at hsum
      rw [List.singleton_append, Drive.reads,
        dataRead_last (hpos s (List.mem_singleton_self _)) hsum.symm (hsum ▸ hle), hsum]
      rcases Drive.nextReadSector io _ with e | d' <;> rfl
    · have hs' := hpos s' (by simp)
      simp only [List.sum_cons] at hsum
      have hlt : s < d.bytesToRw.toNat := by omega
      have hleft := toNat_sub_ofNat d.bytesToRw hlt.le
      rw [List.cons_append, Drive.reads, dataRead_within hlt hle, Except.ok_bind]
      dsimp only
      rw [ih (fun t ht => hpos t (List.mem_cons_of_mem _ ht)) (List.cons_ne_nil _ _)
          (by simp only [hleft, List.sum_cons]; omega)
          (show (d.bytesToRw - BitVec.ofNat 16 s).toNat ≤ sectorSize by omega)]
      have hbuf : d.buf.copyOut (sectorSize - d.bytesToRw.toNat) s ++
          d.buf.bytes.drop (sectorSize - (d.bytesToRw - BitVec.ofNat 16 s).toNat) =
          d.buf.bytes.drop (sectorSize - d.bytesToRw.toNat) := by
        rw [hleft, Sector.copyOut,
          show sectorSize - (d.bytesToRw.toNat - s) = sectorSize - d.bytesToRw.toNat + s by omega,
          ← List.drop_drop, List.take_append_drop]
      rcases Drive.nextReadSector io _ with e | d'
      · rfl
      · simp only [Except.ok_bind]
        rcases Drive.reads io d' rest with e | ⟨out, d''⟩
        · rfl
        · simp [← hbuf]

/-! ## READ SECTORS -/

theorem toNat_sub_one {x : BitVec 16} (h : 0 < x.toNat) : (x - 1).toNat = x.toNat - 1 :=
  toNat_sub_ofNat x h

theorem sectorCommandStart_sectcount (d : Drive σ) :
    (sectorCommandStart d).sectcount = if d.sectcount = 0 then 256 else d.sectcount := by
  unfold sectorCommandStart; split <;> rfl

@[simp] theorem ataGetLba_sectorCommandStart (d : Drive σ) :
    ataGetLba (sectorCommandStart d) = ataGetLba d := by
  unfold sectorCommandStart; split <;> rfl

@[simp] theorem imageStdio_fseekSet (f : Image) (offset : Nat) :
    imageStdio.fseekSet f offset = (true, { f with pos := offset }) := rfl

@[simp] theorem imageStdio_fwrite (f : Image) (buf : Sector) :
    imageStdio.fwrite f buf = (true, ⟨writeAt f.bytes f.pos buf.bytes, f.pos + sectorSize⟩) := rfl

/-- A read of a whole sector inside the image succeeds, moves the stream past it and leaves
`bytes_to_rw = SECTOR_SIZE`. -/
theorem ataReadBuf_image {d : Drive Image} {bytes : List (BitVec 8)} {pos : Nat}
    (hfp : d.fp = some ⟨bytes, pos⟩) (h : pos + sectorSize ≤ bytes.length) :
    ∃ d', ataReadBuf imageStdio d = .ok (true, d') ∧ d'.fp = some ⟨bytes, pos + sectorSize⟩ ∧
      d'.buf.bytes = (bytes.drop pos).take sectorSize ∧ d'.bytesToRw.toNat = sectorSize ∧
      d'.sectcount = d.sectcount ∧ d'.status = d.status := by
  unfold ataReadBuf Drive.stream
  rw [hfp]
  simp [imageStdio, Image.fread, h, show sectorSize < 2 ^ 16 by decide, show sectorSize < 65536 by decide]

/-- A drive in a READ SECTORS transfer from the image `bytes`: `buf` holds sector `lba`, all of it
still to be read, `left` sectors remain counting this one, and the stream stands after it. -/
structure Drive.ReadingAt (d : Drive Image) (bytes : List (BitVec 8)) (lba left : Nat) : Prop where
  fp : d.fp = some ⟨bytes, (lba + 1) * sectorSize⟩
  buf : d.buf.bytes = Disk.read bytes lba 1
  bytesToRw : d.bytesToRw.toNat = sectorSize
  sectcount : d.sectcount.toNat = left

/-- READ SECTORS on a drive whose first sector lies inside its image reads that sector and
starts the transfer. -/
theorem ataCmdReadSectors_image {d : Drive Image} {f : Image} (hfp : d.fp = some f)
    (hrange : (ataGetLba d + 1) * sectorSize ≤ f.bytes.length) :
    ∃ d', ataCmdReadSectors imageStdio d = .ok d' ∧
      d'.ReadingAt f.bytes (ataGetLba d) (sectorCommandStart d).sectcount.toNat := by
  have hin : ataGetLba d * sectorSize + sectorSize ≤ f.bytes.length := by
    rw [Nat.add_mul, Nat.one_mul] at hrange; exact hrange
  obtain ⟨d', hread, hfp', hbuf, hbytes, hsect, -⟩ := @ataReadBuf_image
    { sectorCommandStart d with fp := some ⟨f.bytes, ataGetLba d * sectorSize⟩ } f.bytes _ rfl hin
  refine ⟨d', ?_, ⟨?_, ?_, hbytes, by rw [hsect]⟩⟩
  · simp only [ataCmdReadSectors, Drive.fseek, Drive.stream, sectorCommandStart_fp, hfp,
      imageStdio_fseekSet, ataGetLba_sectorCommandStart, Except.ok_bind, if_true, hread]
  · rw [hfp', Nat.add_mul, Nat.one_mul]
  · rw [hbuf, Disk.read, Nat.one_mul]

theorem nextReadSector_done {d : Drive σ} (h : d.sectcount.toNat = 1) :
    d.nextReadSector io = .ok { d with status := d.status &&& ~~~Status.drq, sectcount := 0 } := by
  have h0 : d.sectcount - 1 = 0 := BitVec.eq_of_toNat_eq (by rw [toNat_sub_one (by omega)]; simp [h])
  unfold Drive.nextReadSector
  dsimp only
  rw [if_neg (not_not_intro h0), h0]

theorem nextReadSector_reading {d : Drive Image} {bytes : List (BitVec 8)} {lba left : Nat}
    (hr : d.ReadingAt bytes lba (left + 2)) (hrange : (lba + 2) * sectorSize ≤ bytes.length) :
    ∃ d', Drive.nextReadSector imageStdio { d with bytesToRw := 0 } = .ok d' ∧
      d'.ReadingAt bytes (lba + 1) (left + 1) := by
  have hcount : (d.sectcount - 1).toNat = left + 1 := by
    rw [toNat_sub_one (by rw [hr.sectcount]; omega), hr.sectcount]
    omega
  have hne : d.sectcount - 1 ≠ 0 := fun h => by rw [h] at hcount; simp at hcount
  have hin : (lba + 1) * sectorSize + sectorSize ≤ bytes.length := by
    simp only [Nat.add_mul] at hrange ⊢; omega
  simp only [Drive.nextReadSector, ne_eq, hne, not_false_eq_true, if_true, ataReadBuf, Drive.stream,
    hr.fp, imageStdio, Image.fread, hin, dif_pos, Except.ok_bind]
  refine ⟨_, rfl, ⟨?_, ?_, ?_, ?_⟩⟩
  · simp [Nat.add_mul]
  · simp [Disk.read, Nat.add_mul]
  · rfl
  · exact hcount

/-- The DATA reads of a whole READ SECTORS transfer, a sector at a time, return the sectors it
covers and end with no data pending and `DRQ` clear. -/
theorem reads_transfer {bytes : List (BitVec 8)} {gs : List (List Nat)}
    (hgs : ∀ g ∈ gs, (∀ s ∈ g, 0 < s) ∧ g.sum = sectorSize) (hne : gs ≠ []) :
    ∀ {d : Drive Image} {lba : Nat}, d.ReadingAt bytes lba gs.length →
      (lba + gs.length) * sectorSize ≤ bytes.length →
      ∃ d', Drive.reads imageStdio d gs.flatten = .ok (Disk.read bytes lba gs.length, d') ∧
        d'.bytesToRw = 0 ∧ ¬ d'.drq := by
  induction gs with
  | nil => exact absurd rfl hne
  | cons g gs ih =>
    intro d lba hr hrange
    obtain ⟨hpos, hsum⟩ := hgs g (List.mem_cons_self _ _)
    have hg : g ≠ [] := by rintro rfl; simp [sectorSize] at hsum
    rw [List.flatten_cons, reads_sector hpos hg gs.flatten (by rw [hsum, hr.bytesToRw])
      hr.bytesToRw.le, hr.bytesToRw, Nat.sub_self, List.drop_zero, hr.buf]
    rcases gs with _ | ⟨g', gs⟩
    · rw [nextReadSector_done
        (show ({ d with bytesToRw := 0 } : Drive Image).sectcount.toNat = 1 from hr.sectcount)]
      exact ⟨{ d with bytesToRw := 0, status := d.status &&& ~~~Status.drq, sectcount := 0 },
        by simp [Drive.reads], rfl, by simp⟩
    · obtain ⟨d', hd', hr'⟩ := nextReadSector_reading hr
        (le_trans (Nat.mul_le_mul_right _ (by simp)) hrange)
      obtain ⟨d'', hreads, hbytes, hdrq⟩ := ih (fun g hg => hgs g (List.mem_cons_of_mem _ hg))
        (List.cons_ne_nil _ _) hr' (by simpa [Nat.add_assoc, Nat.add_comm 1] using hrange)
      refine ⟨d'', ?_, hbytes, hdrq⟩
      rw [hd', Except.ok_bind, hreads,
        show (g :: g' :: gs).length = 1 + (g' :: gs).length from Nat.add_comm _ _, Disk.read_add]
      rfl

theorem commandWrite_readSectors {d : Drive Image} {f : Image} (hfp : d.fp = some f)
    (hrange : (ataGetLba d + 1) * sectorSize ≤ f.bytes.length) :
    ∃ d', commandWrite imageStdio d Cmd.readSectors = .ok d' ∧
      d'.ReadingAt f.bytes (ataGetLba d) (sectorCommandStart d).sectcount.toNat := by
  obtain ⟨d', h, hr⟩ :=
    @ataCmdReadSectors_image { d with error := 0, status := d.status &&& ~~~Status.err } f hfp hrange
  refine ⟨d', ?_, ?_⟩
  · unfold commandWrite ataHandleCmd
    rw [if_neg (by decide), if_neg (by decide), if_pos rfl, h]
  · rw [sectorCommandStart_sectcount] at hr ⊢
    exact hr

/-- When the count register holds only the last byte written to NSECT, a sector command
transfers that many sectors, `0` meaning 256. -/
theorem sectorCommandStart_count {d : Drive σ} (h : d.sectcount.toNat < 256) :
    (sectorCommandStart d).sectcount.toNat =
      if (d.sectcount.setWidth 8).toNat = 0 then 256 else (d.sectcount.setWidth 8).toNat := by
  rw [sectorCommandStart_sectcount, BitVec.toNat_setWidth, Nat.mod_eq_of_lt h]
  by_cases h0 : d.sectcount = 0
  · simp [h0]
  · rw [if_neg h0, if_neg fun h' => h0 (BitVec.eq_of_toNat_eq (by simpa using h'))]

/-- READ SECTORS followed by the DATA reads of its transfer, each no longer than what is left
of its sector, returns the sectors from `ata_get_lba` on, as many as the sector count says, and
leaves no data pending and `DRQ` clear. -/
theorem readSectors_refines {ata : AtaDev Image} {f : Image} (hfp : ata.cur.fp = some f)
    (hcount : ata.cur.sectcount.toNat < 256) {sectors : List (List Nat)}
    (hlen : sectors.length = if (ata.cur.sectcount.setWidth 8).toNat = 0 then 256
      else (ata.cur.sectcount.setWidth 8).toNat)
    (hsizes : ∀ g ∈ sectors, (∀ s ∈ g, 0 < s) ∧ g.sum = sectorSize)
    (hrange : (ataGetLba ata.cur + sectors.length) * sectorSize ≤ f.bytes.length) :
    ∃ ata', serve imageStdio ata (commandAccess Cmd.readSectors ::
        sectors.flatten.map fun s => .data 0#32 (.read s)) =
        .ok (Disk.read f.bytes (ataGetLba ata.cur) sectors.length, ata') ∧
      ata'.curdrive = ata.curdrive ∧ ata'.cur.bytesToRw = 0 ∧ ¬ ata'.cur.drq := by
  have hne : sectors ≠ [] := List.ne_nil_of_length_pos (by rw [hlen]; split <;> omega)
  rw [← sectorCommandStart_count hcount] at hlen
  have hpos := List.length_pos.mpr hne
  obtain ⟨d1, hcmd, hr⟩ := commandWrite_readSectors hfp
    (le_trans (Nat.mul_le_mul_right _ (by omega)) hrange)
  rw [← hlen] at hr
  obtain ⟨d2, hreads, hbytes, hdrq⟩ := reads_transfer hsizes hne hr hrange
  refine ⟨ata.setCur d2, ?_, rfl, by simpa using hbytes, by simpa using hdrq⟩
  rw [serve, step_command, hcmd]
  simp only [Except.map_ok', Except.ok_bind, Reply.done, serve_reads, AtaDev.cur_setCur, hreads,
    AtaDev.setCur_setCur, List.nil_append]

/-! ## WRITE SECTORS -/

/-- The image a drive's stream holds, if it has one. -/
def Drive.image (d : Drive Image) : Option (List (BitVec 8)) := d.fp.map (·.bytes)

@[simp] theorem Drive.nextWriteSector_fp (d : Drive σ) : d.nextWriteSector.fp = d.fp := by
  unfold Drive.nextWriteSector; dsimp only; split <;> rfl

@[simp] theorem Drive.nextWriteSector_buf (d : Drive σ) : d.nextWriteSector.buf = d.buf := by
  unfold Drive.nextWriteSector; dsimp only; split <;> rfl

/-- A DATA write ends the sector exactly when it is as long as what is left of it. -/
theorem Drive.fillBuf_bytesToRw_eq_zero {d : Drive σ} {data : List (BitVec 8)}
    (h : d.copyFits data.length) :
    (d.fillBuf data h).bytesToRw = 0 ↔ data.length = d.bytesToRw.toNat := by
  rw [BitVec.toNat_eq, Drive.fillBuf_toNat h]
  show _ = 0 ↔ _
  have := h.2
  omega

/-- The DATA write that ends the sector leaves in `buf` what was written before it, then itself. -/
theorem Drive.fillBuf_buf_of_last {d : Drive σ} {data : List (BitVec 8)}
    (h : d.copyFits data.length) (heq : data.length = d.bytesToRw.toNat) :
    (d.fillBuf data h).buf.bytes = d.buf.bytes.take (sectorSize - data.length) ++ data := by
  have := h.1
  simp only [Drive.fillBuf, Sector.copyIn, heq]
  rw [List.drop_eq_nil_of_le (by rw [d.buf.length_eq]; omega), List.append_nil]

theorem dataWrite_within {d : Drive σ} {data : List (BitVec 8)}
    (hlt : data.length < d.bytesToRw.toNat) (hle : d.bytesToRw.toNat ≤ sectorSize) :
    dataWrite io d data = .ok (d.fillBuf data ⟨hle, hlt.le⟩) := by
  unfold dataWrite
  rw [dif_pos ⟨hle, hlt.le⟩]
  exact if_neg fun h => absurd ((Drive.fillBuf_bytesToRw_eq_zero _).1 h) hlt.ne

theorem dataWrite_last {d : Drive σ} {data : List (BitVec 8)}
    (heq : data.length = d.bytesToRw.toNat) (hle : d.bytesToRw.toNat ≤ sectorSize) :
    dataWrite io d data = ataWriteBuf io (d.fillBuf data ⟨hle, heq.le⟩).nextWriteSector >>=
      fun (ok, d) => .ok (if ok then d else d.setErrUnc) := by
  unfold dataWrite
  rw [dif_pos ⟨hle, heq.le⟩]
  exact if_pos ((Drive.fillBuf_bytesToRw_eq_zero _).2 heq)

/-- DATA writes whose chunks fill what is left of the sector put them after the part of `buf`
already written, and the last of them writes `buf` out; the writes after it start from there. -/
theorem writes_sector {chunks : List (List (BitVec 8))} (hpos : ∀ b ∈ chunks, b ≠ [])
    (hne : chunks ≠ []) (rest : List (List (BitVec 8))) :
    ∀ {d : Drive σ}, chunks.flatten.length = d.bytesToRw.toNat →
      d.bytesToRw.toNat ≤ sectorSize →
      ∃ D : Drive σ, Drive.writes io d (chunks ++ rest) =
          (ataWriteBuf io D.nextWriteSector >>= fun (ok, d) =>
            .ok (if ok then d else d.setErrUnc)) >>= (fun d => Drive.writes io d rest) ∧
        D.buf.bytes = d.buf.bytes.take (sectorSize - d.bytesToRw.toNat) ++ chunks.flatten ∧
        D.bytesToRw = 0 ∧ D.fp = d.fp ∧ D.sectcount = d.sectcount := by
  induction chunks with
  | nil => exact absurd rfl hne
  | cons b chunks ih =>
    intro d hlen hle
    rcases chunks with _ | ⟨b', chunks⟩
    · simp only [List.flatten_cons, List.flatten_nil, List.append_nil] at hlen
      refine ⟨d.fillBuf b ⟨hle, hlen.le⟩, ?_, ?_, ?_, rfl, rfl⟩
      · rw [List.singleton_append, Drive.writes, dataWrite_last hlen hle]
      · rw [Drive.fillBuf_buf_of_last _ hlen, hlen, List.flatten_singleton]
      · exact (Drive.fillBuf_bytesToRw_eq_zero _).2 hlen
    · have hb' := hpos b' (by simp)
      simp only [List.flatten_cons, List.length_append] at hlen
      have hlt : b.length < d.bytesToRw.toNat := by
        have := List.length_pos.mpr hb'; omega
      have hfit : d.copyFits b.length := ⟨hle, hlt.le⟩
      have hleft := Drive.fillBuf_toNat hfit
      obtain ⟨D, hw, hbuf, h0, hfp, hsc⟩ := @ih (fun c hc => hpos c (List.mem_cons_of_mem _ hc))
        (List.cons_ne_nil _ _) (d.fillBuf b hfit)
        (by rw [hleft, List.flatten_cons, List.length_append]; omega) (by omega)
      refine ⟨D, ?_, ?_, h0, hfp, hsc⟩
      · rw [List.cons_append, Drive.writes, dataWrite_within hlt hle, Except.ok_bind]
        exact hw
      · have hl : (d.buf.bytes.take (sectorSize - d.bytesToRw.toNat) ++ b).length =
            sectorSize - (d.bytesToRw.toNat - b.length) := by
          simp only [List.length_append, List.length_take, d.buf.length_eq]; omega
        rw [hbuf, hleft, ← hl]
        show (d.buf.bytes.take (sectorSize - d.bytesToRw.toNat) ++ b ++ _).take _ ++ _ = _
        rw [List.take_left' rfl]
        simp only [List.flatten_cons, List.append_assoc]

/-- A drive in a WRITE SECTORS transfer to the image `bytes`: a whole sector is awaited, `left`
sectors remain counting this one, and the stream stands at `pos`. -/
structure Drive.WritingAt (d : Drive Image) (bytes : List (BitVec 8)) (pos left : Nat) : Prop where
  fp : d.fp = some ⟨bytes, pos⟩
  bytesToRw : d.bytesToRw.toNat = sectorSize
  sectcount : d.sectcount.toNat = left

/-- The end of a sector on an image: `buf` is written at the stream position. -/
theorem writeBuf_image {D : Drive Image} {bytes : List (BitVec 8)} {pos : Nat}
    (hfp : D.fp = some ⟨bytes, pos⟩) :
    (ataWriteBuf imageStdio D.nextWriteSector >>= fun (ok, d) =>
      (.ok (if ok then d else d.setErrUnc) : Except Fault (Drive Image))) =
      .ok { D.nextWriteSector with fp := some ⟨writeAt bytes pos D.buf.bytes, pos + sectorSize⟩ } := by
  simp [ataWriteBuf, Drive.stream, hfp]

theorem nextWriteSector_done {D : Drive σ} (h : D.sectcount.toNat = 1) :
    D.nextWriteSector = { D with status := D.status &&& ~~~Status.drq, sectcount := 0 } := by
  have h0 : D.sectcount - 1 = 0 :=
    BitVec.eq_of_toNat_eq (by rw [toNat_sub_one (by omega)]; simp [h])
  unfold Drive.nextWriteSector
  dsimp only
  rw [if_neg (not_not_intro h0), h0]

theorem nextWriteSector_more {D : Drive σ} {left : Nat} (h : D.sectcount.toNat = left + 2) :
    D.nextWriteSector.bytesToRw.toNat = sectorSize ∧ D.nextWriteSector.sectcount.toNat = left + 1 := by
  have hc : (D.sectcount - 1).toNat = left + 1 := by
    rw [toNat_sub_one (by omega), h]
    omega
  have hne : D.sectcount - 1 ≠ 0 := fun h0 => by rw [h0] at hc; simp at hc
  unfold Drive.nextWriteSector
  dsimp only
  rw [if_pos hne]
  exact ⟨rfl, hc⟩

/-- The DATA writes of a whole WRITE SECTORS transfer store the sectors one after another from the
stream position on, and end with no data pending and `DRQ` clear. -/
theorem writes_transfer {secs : List (List (List (BitVec 8)))}
    (hsecs : ∀ g ∈ secs, (∀ b ∈ g, b ≠ []) ∧ g.flatten.length = sectorSize) (hne : secs ≠ []) :
    ∀ {d : Drive Image} {bytes : List (BitVec 8)} {pos : Nat}, d.WritingAt bytes pos secs.length →
      ∃ d', Drive.writes imageStdio d secs.flatten = .ok d' ∧
        d'.image = some (writeAt bytes pos (secs.map List.flatten).flatten) ∧
        d'.bytesToRw = 0 ∧ ¬ d'.drq := by
  induction secs with
  | nil => exact absurd rfl hne
  | cons g gs ih =>
    intro d bytes pos hw
    obtain ⟨hpos, hlen⟩ := hsecs g (List.mem_cons_self _ _)
    have hg : g ≠ [] := by rintro rfl; simp [sectorSize] at hlen
    obtain ⟨D, hwrites, hbuf, h0, hfp, hsc⟩ := writes_sector hpos hg gs.flatten
      (by rw [hlen, hw.bytesToRw]) hw.bytesToRw.le
    rw [hw.bytesToRw, Nat.sub_self, List.take_zero, List.nil_append] at hbuf
    rw [List.flatten_cons, hwrites, writeBuf_image (hfp.trans hw.fp), Except.ok_bind, hbuf]
    rcases gs with _ | ⟨g', gs⟩
    · rw [nextWriteSector_done (hsc ▸ hw.sectcount)]
      exact ⟨_, rfl, by simp [Drive.image], h0, by simp⟩
    · obtain ⟨hbytes, hcount⟩ := nextWriteSector_more (hsc ▸ hw.sectcount)
      obtain ⟨d', hd', himage, hb, hdrq⟩ := @ih (fun g hg => hsecs g (List.mem_cons_of_mem _ hg))
        (List.cons_ne_nil _ _)
        { D.nextWriteSector with fp := some ⟨writeAt bytes pos g.flatten, pos + sectorSize⟩ }
        (writeAt bytes pos g.flatten) (pos + sectorSize) ⟨rfl, hbytes, hcount⟩
      refine ⟨d', hd', ?_, hb, hdrq⟩
      rw [himage, ← hlen, writeAt_writeAt]
      simp only [List.map_cons, List.flatten_cons]

/-- WRITE SECTORS seeks to the first sector and awaits its data. -/
theorem commandWrite_writeSectors {d : Drive Image} {f : Image} (hfp : d.fp = some f) :
    ∃ d', commandWrite imageStdio d Cmd.writeSectors = .ok d' ∧
      d'.WritingAt f.bytes (ataGetLba d * sectorSize) (sectorCommandStart d).sectcount.toNat := by
  unfold commandWrite ataHandleCmd ataCmdWriteSectors
  rw [if_neg (by decide), if_neg (by decide), if_neg (by decide), if_pos rfl]
  simp only [Drive.fseek, Drive.stream, sectorCommandStart_fp, hfp, imageStdio_fseekSet,
    ataGetLba_sectorCommandStart, Except.ok_bind, if_true]
  refine ⟨_, rfl, rfl, rfl, ?_⟩
  rw [sectorCommandStart_sectcount, sectorCommandStart_sectcount]

/-- WRITE SECTORS followed by the DATA writes of its transfer, each no longer than what is left
of its sector, stores the sectors written from `ata_get_lba` on, and leaves no data pending and
`DRQ` clear. -/
theorem writeSectors_refines {ata : AtaDev Image} {f : Image} (hfp : ata.cur.fp = some f)
    (hcount : ata.cur.sectcount.toNat < 256) {sectors : List (List (List (BitVec 8)))}
    (hlen : sectors.length = if (ata.cur.sectcount.setWidth 8).toNat = 0 then 256
      else (ata.cur.sectcount.setWidth 8).toNat)
    (hsizes : ∀ g ∈ sectors, (∀ b ∈ g, b ≠ []) ∧ g.flatten.length = sectorSize) :
    ∃ ata', serve imageStdio ata (commandAccess Cmd.writeSectors ::
        sectors.flatten.map fun b => .data 0#32 (.write b)) = .ok ([], ata') ∧
      ata'.curdrive = ata.curdrive ∧
      ata'.cur.image = some (Disk.write f.bytes (ataGetLba ata.cur) (sectors.map List.flatten)) ∧
      ata'.cur.bytesToRw = 0 ∧ ¬ ata'.cur.drq := by
  have hne : sectors ≠ [] := List.ne_nil_of_length_pos (by rw [hlen]; split <;> omega)
  rw [← sectorCommandStart_count hcount] at hlen
  obtain ⟨d1, hcmd, hw⟩ := commandWrite_writeSectors hfp
  rw [← hlen] at hw
  obtain ⟨d2, hwrites, himage, hbytes, hdrq⟩ := writes_transfer hsizes hne hw
  refine ⟨ata.setCur d2, ?_, rfl, by simpa using himage, by simpa using hbytes, by simpa using hdrq⟩
  rw [serve, step_command, hcmd]
  simp only [Except.map_ok', Except.ok_bind, Reply.done, serve_writes, AtaDev.cur_setCur, hwrites,
    AtaDev.setCur_setCur, List.nil_append]

/-! ## What writes the image -/

theorem Image.fread_bytes (f : Image) (buf : Sector) : (f.fread buf).2.2.bytes = f.bytes := by
  unfold Image.fread; split <;> rfl

theorem Drive.fseek_image {d d' : Drive Image} {offset : Nat} {ok : Bool}
    (h : d.fseek imageStdio offset = .ok (ok, d')) : d'.image = d.image := by
  obtain ⟨f, hfp, -, rfl⟩ := Drive.fseek_ok h
  simp [Drive.image, hfp]

theorem ataReadBuf_image_eq {d d' : Drive Image} {ok : Bool}
    (h : ataReadBuf imageStdio d = .ok (ok, d')) : d'.image = d.image := by
  obtain ⟨f, hfp, -, rfl⟩ := ataReadBuf_ok h
  split <;> simp [Drive.image, Drive.setErrUnc, hfp, imageStdio, Image.fread_bytes]

theorem commandWrite_image {d d' : Drive Image} {cmd : BitVec 8}
    (h : commandWrite imageStdio d cmd = .ok d') : d'.image = d.image := by
  unfold commandWrite ataHandleCmd at h
  split_ifs at h
  · cases h; rfl
  · cases h; rfl
  · unfold ataCmdReadSectors at h
    obtain ⟨⟨ok, d1⟩, hs, h⟩ := Except.bind_eq_ok.mp h
    have h1 : d1.image = d.image := (Drive.fseek_image hs).trans (by simp [Drive.image])
    dsimp only at h
    split at h
    · obtain ⟨⟨ok', d2⟩, hr, h⟩ := Except.bind_eq_ok.mp h
      cases h
      have h2 := (ataReadBuf_image_eq hr).trans h1
      split <;> simpa [Drive.image, Drive.setErrUnc] using h2
    · cases h; simpa [Drive.image, Drive.setErrUnc] using h1
  · unfold ataCmdWriteSectors at h
    obtain ⟨⟨ok, d1⟩, hs, h⟩ := Except.bind_eq_ok.mp h
    have h1 : d1.image = d.image := (Drive.fseek_image hs).trans (by simp [Drive.image])
    cases h
    split <;> simpa [Drive.image, Drive.setErrUnc] using h1
  · cases h; rfl

theorem nextReadSector_image {d d' : Drive Image} (h : d.nextReadSector imageStdio = .ok d') :
    d'.image = d.image := by
  unfold Drive.nextReadSector at h
  dsimp only at h
  split at h
  · obtain ⟨⟨ok, d2⟩, hr, h⟩ := Except.bind_eq_ok.mp h
    cases h
    have := ataReadBuf_image_eq hr
    split <;> simpa [Drive.image, Drive.setErrUnc] using this
  · cases h; rfl

theorem dataRead_image {d d' : Drive Image} {size : Nat} {out : List (BitVec 8)}
    (h : dataRead imageStdio d size = .ok (out, d')) : d'.image = d.image := by
  unfold dataRead at h
  split at h
  · split at h
    · dsimp only at h
      split at h
      · obtain ⟨d2, hn, heq⟩ := Except.map_eq_ok.mp h
        cases heq
        exact (nextReadSector_image hn).trans rfl
      · cases h; rfl
    · cases h
  · cases h; rfl

/-- A DATA write changes the image only when it fills the sector, and then `buf` with the written
bytes at its end goes to the stream position. -/
theorem dataWrite_image {d d' : Drive Image} {data : List (BitVec 8)}
    (h : dataWrite imageStdio d data = .ok d') :
    d'.image = d.image ∨ ∃ f, d.fp = some f ∧ data.length = d.bytesToRw.toNat ∧
      d'.image = some (writeAt f.bytes f.pos (d.buf.bytes.take (sectorSize - data.length) ++ data)) := by
  unfold dataWrite at h
  split at h
  · rename_i hfit
    dsimp only at h
    split at h
    · rename_i h0
      obtain ⟨⟨ok, d2⟩, hw, h⟩ := Except.bind_eq_ok.mp h
      obtain ⟨f, hfp, rfl, rfl⟩ := ataWriteBuf_ok hw
      cases h
      have hlen := (Drive.fillBuf_bytesToRw_eq_zero hfit).1 h0
      refine .inr ⟨f, by simpa using hfp, hlen, ?_⟩
      simp [Drive.image, Drive.setErrUnc, Drive.fillBuf_buf_of_last hfit hlen]
    · left; cases h; rfl
  · cases h

theorem ctlWrite_fp (d : Drive σ) (b : BitVec 8) : (ctlWrite d b).fp = d.fp := by
  unfold ctlWrite softReset; dsimp only; split_ifs <;> rfl

/-- Installing a drive with the image of the selected one, in a device whose drives are those of
`ata`, leaves every drive's image as in `ata`. -/
theorem image_setCur {ata ata' : AtaDev Image} {d : Drive Image} (hdrive : ata'.drive = ata.drive)
    (h : d.image = ata'.cur.image) (i : Fin 2) :
    ((ata'.setCur d).drive i).image = (ata.drive i).image := by
  rw [AtaDev.setCur_drive]
  split
  · subst i; simpa [AtaDev.cur, hdrive] using h
  · rw [hdrive]

theorem Effect.image {ata ata' : AtaDev Image} {a : Access} (he : Effect imageStdio ata a ata')
    (i : Fin 2) :
    (ata'.drive i).image = (ata.drive i).image ∨
      ∃ data f, a = .data 0#32 (.write data) ∧ i = ata.curdrive ∧ (ata.drive i).fp = some f ∧
        data.length = (ata.drive i).bytesToRw.toNat ∧
        (ata'.drive i).image = some (writeAt f.bytes f.pos
          ((ata.drive i).buf.bytes.take (sectorSize - data.length) ++ data)) := by
  cases he with
  | none => exact .inl rfl
  | read hd => exact .inl (image_setCur rfl (dataRead_image hd) i)
  | command hd => exact .inl (image_setCur rfl (commandWrite_image hd) i)
  | control => exact .inl (image_setCur rfl (by simp [Drive.image, ctlWrite_fp]) i)
  | registers hdrive hd => exact .inl (image_setCur hdrive (by rw [hd]; rfl) i)
  | @write data d hd =>
    rcases dataWrite_image hd with heq | ⟨f, hfp, hlen, himage⟩
    · exact .inl (image_setCur rfl heq i)
    by_cases hi : i = ata.curdrive
    · subst hi
      refine .inr ⟨data, f, rfl, rfl, hfp, hlen, ?_⟩
      show ((ata.setCur d).cur).image = _
      rw [AtaDev.cur_setCur]; exact himage
    · left
      simp [AtaDev.setCur_drive, hi]

/-- Every access leaves the image of each drive as it was, except a write to the DATA register
of the selected drive that fills its sector, which writes `buf`, ending with the written bytes,
at the stream position: whatever command set the transfer up. -/
theorem step_image {ata : AtaDev Image} {a : Access} {r : Reply Image}
    (h : step imageStdio ata a = .ok r) (i : Fin 2) :
    (r.ata.drive i).image = (ata.drive i).image ∨
      ∃ data f, a = .data 0#32 (.write data) ∧ i = ata.curdrive ∧ (ata.drive i).fp = some f ∧
        data.length = (ata.drive i).bytesToRw.toNat ∧
        (r.ata.drive i).image = some (writeAt f.bytes f.pos
          ((ata.drive i).buf.bytes.take (sectorSize - data.length) ++ data)) :=
  (step_effect h).image i

/-! ## The device against the disk -/

set_option maxRecDepth 4000 in
/-- IDENTIFY and then a sector's worth of DATA writes: with no WRITE SECTORS, the bytes written
over the identify data go to the image's first sector. -/
theorem identify_then_data_write :
    (fun (_, ata) => (ata.drive 0).image) <$> run imageStdio (some ⟨List.replicate 512 0, 0⟩) none
      [commandAccess Cmd.identify, .data 0#32 (.write (List.replicate 512 1))] =
      .ok (some (List.replicate 512 1)) :=
  rfl

/-- The device on an image file against the abstract disk. No access changes an image but a
DATA write that fills the selected drive's sector, which writes the sector buffer out at the
stream position. WRITE SECTORS followed by its DATA writes stores the sectors written from
`ata_get_lba` on, and READ SECTORS followed by its DATA reads returns the image's sectors from
`ata_get_lba` on; after either no data is pending and `DRQ` is clear. Both take the sector count
from the low byte of `sectcount`, `0` meaning 256, for a `sectcount` below 256. -/
theorem ata_refines_disk :
    (∀ (ata : AtaDev Image) (a : Access) (r : Reply Image), step imageStdio ata a = .ok r →
      ∀ i, (r.ata.drive i).image = (ata.drive i).image ∨
        ∃ data f, a = .data 0#32 (.write data) ∧ i = ata.curdrive ∧ (ata.drive i).fp = some f ∧
          data.length = (ata.drive i).bytesToRw.toNat ∧
          (r.ata.drive i).image = some (writeAt f.bytes f.pos
            ((ata.drive i).buf.bytes.take (sectorSize - data.length) ++ data))) ∧
    (∀ (ata : AtaDev Image) (f : Image) (sectors : List (List (List (BitVec 8)))),
      ata.cur.fp = some f → ata.cur.sectcount.toNat < 256 →
      sectors.length = (if (ata.cur.sectcount.setWidth 8).toNat = 0 then 256
        else (ata.cur.sectcount.setWidth 8).toNat) →
      (∀ g ∈ sectors, (∀ b ∈ g, b ≠ []) ∧ g.flatten.length = sectorSize) →
      ∃ ata', serve imageStdio ata (commandAccess Cmd.writeSectors ::
          sectors.flatten.map fun b => .data 0#32 (.write b)) = .ok ([], ata') ∧
        ata'.curdrive = ata.curdrive ∧
        ata'.cur.image = some (Disk.write f.bytes (ataGetLba ata.cur) (sectors.map List.flatten)) ∧
        ata'.cur.bytesToRw = 0 ∧ ¬ ata'.cur.drq) ∧
    (∀ (ata : AtaDev Image) (f : Image) (sectors : List (List Nat)),
      ata.cur.fp = some f → ata.cur.sectcount.toNat < 256 →
      sectors.length = (if (ata.cur.sectcount.setWidth 8).toNat = 0 then 256
        else (ata.cur.sectcount.setWidth 8).toNat) →
      (∀ g ∈ sectors, (∀ s ∈ g, 0 < s) ∧ g.sum = sectorSize) →
      (ataGetLba ata.cur + sectors.length) * sectorSize ≤ f.bytes.length →
      ∃ ata', serve imageStdio ata (commandAccess Cmd.readSectors ::
          sectors.flatten.map fun s => .data 0#32 (.read s)) =
          .ok (Disk.read f.bytes (ataGetLba ata.cur) sectors.length, ata') ∧
        ata'.curdrive = ata.curdrive ∧ ata'.cur.bytesToRw = 0 ∧ ¬ ata'.cur.drq) :=
  ⟨fun _ _ _ h => step_image h,
   fun _ _ _ hfp hcount hlen hsizes => writeSectors_refines hfp hcount hlen hsizes,
   fun _ _ _ hfp hcount hlen hsizes hrange => readSectors_refines hfp hcount hlen hsizes hrange⟩

set_option maxRecDepth 4000 in
/-- READ SECTORS for one sector at LBA 0 of a one-sector image, read in two halves. -/
theorem read_sector_in_halves :
    ∃ ata', serve imageStdio
        ⟨fun _ => { Drive.zeroed (some ⟨List.replicate 512 7, 0⟩) with sectcount := 1 }, 0⟩
        [commandAccess Cmd.readSectors, .data 0#32 (.read 256), .data 0#32 (.read 256)] =
        .ok (List.replicate 512 7, ata') ∧
      ata'.curdrive = 0 ∧ ata'.cur.bytesToRw = 0 ∧ ¬ ata'.cur.drq :=
  ata_refines_disk.2.2 _ ⟨List.replicate 512 7, 0⟩ [[256, 256]] rfl (by decide) (by decide)
    (by decide) (by decide)

end Rvvm.Ata
