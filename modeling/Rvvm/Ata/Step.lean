import Rvvm.Ata.Handler

/-!
# What one guest access does to the drives

`step_effect` is the one place where the two handlers are taken apart: a guest access that does
not fault has one `Effect` on the device. From it, `step_driveStep`: each drive is left as it was
or moves by one `DriveStep`, the list of what the register writes, the control register, a
command and a DATA transfer can do to a drive.
Invariants of runs are proved once per `DriveStep` constructor and lifted to every state
`Reachable` from `ata_init` by `Reachable.drive_induction`.
-/

namespace Rvvm.Ata

variable {σ : Type} {io : Stdio σ}

/-! ## Stream calls -/

theorem Drive.fseek_ok {d d' : Drive σ} {offset : Nat} {ok : Bool}
    (h : d.fseek io offset = .ok (ok, d')) :
    ∃ f, d.fp = some f ∧ ok = (io.fseekSet f offset).1 ∧
      d' = { d with fp := some (io.fseekSet f offset).2 } := by
  unfold Drive.fseek Drive.stream at h
  split at h
  · cases h; exact ⟨_, ‹_›, rfl, rfl⟩
  · cases h

theorem ataReadBuf_ok {d d' : Drive σ} {ok : Bool} (h : ataReadBuf io d = .ok (ok, d')) :
    ∃ f, d.fp = some f ∧ ok = (io.fread f d.buf).1 ∧
      d' = if ok then { d with fp := some (io.fread f d.buf).2.2, buf := (io.fread f d.buf).2.1,
                               bytesToRw := BitVec.ofNat 16 sectorSize }
           else { d with fp := some (io.fread f d.buf).2.2, buf := (io.fread f d.buf).2.1 } := by
  unfold ataReadBuf Drive.stream at h
  split at h
  · refine ⟨_, ‹_›, ?_⟩
    rcases hr : io.fread _ d.buf with ⟨_ | _, buf, f'⟩ <;>
      simp only [hr, Except.ok_bind] at h <;> cases h <;> simp
  · cases h

theorem ataWriteBuf_ok {d d' : Drive σ} {ok : Bool} (h : ataWriteBuf io d = .ok (ok, d')) :
    ∃ f, d.fp = some f ∧ ok = (io.fwrite f d.buf).1 ∧
      d' = { d with fp := some (io.fwrite f d.buf).2 } := by
  unfold ataWriteBuf Drive.stream at h
  split at h
  · cases h; exact ⟨_, ‹_›, rfl, rfl⟩
  · cases h

/-! ## Drive steps -/

/-- What one guest access can do to one drive. -/
inductive DriveStep (io : Stdio σ) : Drive σ → Drive σ → Prop
  /-- A write to NSECT, LBAL, LBAM, LBAH or DEVICE changes only those registers. -/
  | registers {d d' : Drive σ} (hfp : d'.fp = d.fp) (hsize : d'.size = d.size)
      (hbytes : d'.bytesToRw = d.bytesToRw) (hstatus : d'.status = d.status)
      (herror : d'.error = d.error) (hhob : d'.hobShift = d.hobShift) (hbuf : d'.buf = d.buf) :
      DriveStep io d d'
  /-- A write to the device control register. -/
  | control (d : Drive σ) (b : BitVec 8) : DriveStep io d (ctlWrite d b)
  /-- A command written to STATUS. -/
  | command {d d' : Drive σ} (cmd : BitVec 8) : commandWrite io d cmd = .ok d' → DriveStep io d d'
  /-- A write to DATA. -/
  | write {d d' : Drive σ} (data : List (BitVec 8)) : dataWrite io d data = .ok d' →
      DriveStep io d d'
  /-- A read of DATA. -/
  | read {d d' : Drive σ} {out : List (BitVec 8)} (size : Nat) :
      dataRead io d size = .ok (out, d') → DriveStep io d d'

/-- Installing a drive moved by one `DriveStep` in the selected slot of a device whose drives
are those of `ata`. -/
theorem setCur_driveStep {ata ata' : AtaDev σ} {d : Drive σ} (hdrive : ata'.drive = ata.drive)
    (hd : DriveStep io ata'.cur d) (i : Fin 2) :
    (ata'.setCur d).drive i = ata.drive i ∨ DriveStep io (ata.drive i) ((ata'.setCur d).drive i) := by
  rw [AtaDev.setCur_drive]
  split
  · subst i; right; simpa [AtaDev.cur, hdrive] using hd
  · left; rw [hdrive]

/-! ## What one access does -/

/-- What one access that does not fault does to the device: nothing, or it installs in the
selected slot the drive a DATA write, a DATA read, a command or a control write leaves, or a
drive that differs from the selected one in the task-file registers alone. -/
inductive Effect (io : Stdio σ) (ata : AtaDev σ) : Access → AtaDev σ → Prop
  /-- A refused access, a read of a register, or a write with no effect. -/
  | none (a : Access) : Effect io ata a ata
  /-- A write to DATA. -/
  | write {data : List (BitVec 8)} {d : Drive σ} :
      dataWrite io ata.cur data = .ok d → Effect io ata (.data 0#32 (.write data)) (ata.setCur d)
  /-- A read of DATA. -/
  | read {a : Access} {size : Nat} {out : List (BitVec 8)} {d : Drive σ} :
      dataRead io ata.cur size = .ok (out, d) → Effect io ata a (ata.setCur d)
  /-- A command written to STATUS. -/
  | command {a : Access} {cmd : BitVec 8} {d : Drive σ} :
      commandWrite io ata.cur cmd = .ok d → Effect io ata a (ata.setCur d)
  /-- A write to the device control register. -/
  | control (a : Access) (b : BitVec 8) : Effect io ata a (ata.setCur (ctlWrite ata.cur b))
  /-- A write to NSECT, LBAL, LBAM, LBAH or DEVICE, which may also select the other drive. -/
  | registers {a : Access} {ata' : AtaDev σ} {d : Drive σ} (hdrive : ata'.drive = ata.drive)
      (hd : d = { ata'.cur with
        sectcount := d.sectcount, lbal := d.lbal, lbam := d.lbam, lbah := d.lbah,
        drive := d.drive }) : Effect io ata a (ata'.setCur d)

/-- An aligned access whose register number is `0` is at offset `0`. -/
theorem offset_eq_zero {offset : BitVec 32} (h1 : ¬ offset &&& 3#32 ≠ 0)
    (h2 : (offset >>> ataRegShift).toNat = 0) : offset = 0#32 := by
  apply BitVec.eq_of_toNat_eq
  have h1' : (offset &&& 3#32).toNat = 0 := by simp at h1; simp [h1]
  rw [BitVec.toNat_and, show (3#32 : BitVec 32).toNat = 3 from rfl,
    show offset.toNat &&& 3 = offset.toNat % 4 from Nat.and_pow_two_sub_one_eq_mod _ 2] at h1'
  rw [BitVec.toNat_ushiftRight, Nat.shiftRight_eq_div_pow] at h2
  simp only [BitVec.toNat_ofNat, ataRegShift] at h2 ⊢
  omega

/-- The two handlers taken apart, once: every access that does not fault has an `Effect`. -/
theorem step_effect {ata : AtaDev σ} {a : Access} {r : Reply σ} (h : step io ata a = .ok r) :
    Effect io ata a r.ata := by
  cases a with
  | ctl offset access =>
    cases h
    unfold ataCtlMmioHandler
    split
    · exact .none _
    · split
      · exact .none _
      · exact .control _ _
      · exact .none _
  | data offset access =>
    simp only [step, ataDataMmioHandler] at h
    split at h
    · cases h; exact .none _
    rename_i halign
    split at h
    · cases h; exact .none _
    generalize hreg : (offset >>> ataRegShift).toNat = reg at h
    unfold ataDataRegister at h
    rcases reg with _ | _ | _ | _ | _ | _ | _ | _ | reg <;> cases access <;> dsimp only at h
    · obtain ⟨⟨out, d⟩, hd, rfl⟩ := Except.map_eq_ok.mp h
      exact .read hd
    · obtain ⟨d, hd, rfl⟩ := Except.map_eq_ok.mp h
      rw [offset_eq_zero halign hreg]
      exact .write hd
    all_goals first
      | (cases h; exact .none _)
      | (cases h; exact .registers rfl rfl)
      | (obtain ⟨d, hd, rfl⟩ := Except.map_eq_ok.mp h
         exact .command hd)

theorem Effect.driveStep {ata ata' : AtaDev σ} {a : Access} (he : Effect io ata a ata')
    (i : Fin 2) : ata'.drive i = ata.drive i ∨ DriveStep io (ata.drive i) (ata'.drive i) := by
  cases he with
  | none => exact .inl rfl
  | write hd => exact setCur_driveStep rfl (.write _ hd) i
  | read hd => exact setCur_driveStep rfl (.read _ hd) i
  | command hd => exact setCur_driveStep rfl (.command _ hd) i
  | control => exact setCur_driveStep rfl (.control _ _) i
  | registers hdrive hd =>
    refine setCur_driveStep hdrive (.registers ?_ ?_ ?_ ?_ ?_ ?_ ?_) i <;> rw [hd]

/-- Every access that does not fault leaves each drive as it was or moves it by a `DriveStep`. -/
theorem step_driveStep {ata : AtaDev σ} {a : Access} {r : Reply σ}
    (h : step io ata a = .ok r) (i : Fin 2) :
    r.ata.drive i = ata.drive i ∨ DriveStep io (ata.drive i) (r.ata.drive i) :=
  (step_effect h).driveStep i

/-! ## Accesses to DATA -/

theorem step_dataRegister (ata : AtaDev σ) (access : MmioAccess) :
    step io ata (.data 0#32 access) = ataDataRegister io ata 0 access := by
  simp [step, ataDataMmioHandler, Reg.data, ataRegShift]

theorem step_dataRead (ata : AtaDev σ) (size : Nat) :
    step io ata (.data 0#32 (.read size)) =
      (fun (out, d) => ⟨true, out, ata.setCur d⟩) <$> dataRead io ata.cur size := by
  rw [step_dataRegister]; rfl

theorem step_dataWrite (ata : AtaDev σ) (data : List (BitVec 8)) :
    step io ata (.data 0#32 (.write data)) =
      (fun d => Reply.done (ata.setCur d)) <$> dataWrite io ata.cur data := by
  rw [step_dataRegister]; rfl

/-! ## Runs -/

/-- The states a run of guest accesses reaches from the device `ata_init` builds, up to the first
access with no defined result: after a copy outside `buf` or a `stdio` call on `NULL` (a `Fault`)
C gives the run no meaning, and the run stops there. -/
inductive Reachable (io : Stdio σ) : AtaDev σ → Prop
  | init {master slave : Option σ} {ata : AtaDev σ} :
      ataInit io master slave = .ok ata → Reachable io ata
  | step {ata : AtaDev σ} {r : Reply σ} (a : Access) :
      Reachable io ata → step io ata a = .ok r → Reachable io r.ata

/-- Both drives of the device `ata_init` builds are zeroed but for the stream and the size. -/
theorem ataInit_drive {master slave : Option σ} {ata : AtaDev σ}
    (h : ataInit io master slave = .ok ata) (i : Fin 2) :
    (ata.drive i).bytesToRw = 0 ∧ (ata.drive i).status = 0 := by
  unfold ataInit at h
  split at h
  · cases h
  obtain ⟨⟨n, f⟩, -, h⟩ := Except.bind_eq_ok.mp h
  obtain ⟨⟨n', f'⟩, -, h⟩ := Except.bind_eq_ok.mp h
  cases h
  match i with
  | 0 => simp only [Matrix.cons_val_zero]; split <;> exact ⟨rfl, rfl⟩
  | 1 => simp only [Matrix.cons_val_one, Matrix.head_cons]; split <;> exact ⟨rfl, rfl⟩

/-- A property of drives that holds of the zeroed drives `ata_init` builds and that every
`DriveStep` keeps holds of every drive of every reachable state. -/
theorem Reachable.drive_induction (P : Drive σ → Prop)
    (hinit : ∀ d : Drive σ, d.bytesToRw = 0 → d.status = 0 → P d)
    (hstep : ∀ d d', DriveStep io d d' → P d → P d')
    {ata : AtaDev σ} (h : Reachable io ata) (i : Fin 2) : P (ata.drive i) := by
  induction h generalizing i with
  | init hinit' =>
    obtain ⟨hb, hs⟩ := ataInit_drive hinit' i
    exact hinit _ hb hs
  | step a _ hs ih =>
    rcases step_driveStep hs i with heq | hd
    · rw [heq]; exact ih i
    · exact hstep _ _ hd (ih i)

/-- Serve guest accesses in order: the bytes the reads leave in `memory_data`, one access after
another, and the device afterwards; or the first fault. -/
def serve (io : Stdio σ) : AtaDev σ → List Access → Except Fault (List (BitVec 8) × AtaDev σ)
  | ata, [] => .ok ([], ata)
  | ata, a :: rest =>
    step io ata a >>= fun r => (fun (out, ata) => (r.out ++ out, ata)) <$> serve io r.ata rest

/-- `ata_init` followed by guest accesses. -/
def run (io : Stdio σ) (master slave : Option σ) (accesses : List Access) :
    Except Fault (List (BitVec 8) × AtaDev σ) :=
  ataInit io master slave >>= fun ata => serve io ata accesses

theorem Reachable.serve {ata : AtaDev σ} {accesses : List Access}
    {out : List (BitVec 8)} {ata' : AtaDev σ} (h : Reachable io ata)
    (hs : serve io ata accesses = .ok (out, ata')) : Reachable io ata' := by
  induction accesses generalizing ata out with
  | nil => cases hs; exact h
  | cons a rest ih =>
    obtain ⟨r, hr, hs⟩ := Except.bind_eq_ok.mp hs
    obtain ⟨⟨out', ata''⟩, hs, heq⟩ := Except.map_eq_ok.mp hs
    cases heq
    exact ih (.step a h hr) hs

end Rvvm.Ata
