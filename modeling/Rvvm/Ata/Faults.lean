import Rvvm.Ata.Drq

/-!
# Where the device has no defined behaviour

Two kinds of access reach code whose result C leaves undefined. A DATA write copies the access
into `buf` at `SECTOR_SIZE - bytes_to_rw` however little is left of the sector, and does not even
test that anything is pending, as the read path does: in a reachable state the copy leaves `buf`
exactly when the write is longer than what is pending (`reachable_dataWrite_outOfBounds`), so a
DATA write before any command copies to `buf[512]` (`dataWrite_before_command`). And `ata_init`
calls `stdio` on the master's stream without testing it: it faults exactly when the `assert`
fails or the master is absent or empty (`ataInit_error_iff`), the last because an empty master's
stream is set to `NULL` and then measured for the slave.
-/

namespace Rvvm.Ata

variable {σ : Type} {io : Stdio σ}

theorem ataWriteBuf_error {d : Drive σ} {e : Fault} (h : ataWriteBuf io d = .error e) :
    e = .nullStream ∧ d.fp = none := by
  unfold ataWriteBuf Drive.stream at h
  split at h <;> cases h
  exact ⟨rfl, ‹_›⟩

/-- A stream call fails only with `nullStream`, so what follows it cannot be out of bounds. -/
theorem bind_ne_outOfBounds {α β : Type} {x : Except Fault α} {f : α → Except Fault β}
    (hx : ∀ e, x = .error e → e = .nullStream) (hf : ∀ a, f a ≠ .error .outOfBounds) :
    x >>= f ≠ .error .outOfBounds := by
  cases x with
  | error e => simp [hx e rfl]
  | ok a => exact hf a

/-! ## Copies outside the sector buffer -/

theorem dataWrite_outOfBounds_iff {d : Drive σ} {data : List (BitVec 8)} :
    dataWrite io d data = .error .outOfBounds ↔ ¬ d.copyFits data.length := by
  unfold dataWrite
  split
  · refine iff_of_false ?_ (not_not.mpr ‹_›)
    dsimp only
    split
    · exact bind_ne_outOfBounds (fun _ h => (ataWriteBuf_error h).1) (fun _ => by simp)
    · simp
  · exact iff_of_true rfl ‹_›

/-- In a reachable state the copy fits exactly when the access is no longer than what is left of
the sector. -/
theorem reachable_copyFits_iff {ata : AtaDev σ} (h : Reachable io ata) (i : Fin 2) (n : Nat) :
    (ata.drive i).copyFits n ↔ n ≤ (ata.drive i).bytesToRw.toNat :=
  ⟨And.right, fun hn => ⟨(reachable_drqInv h i).bytes_le, hn⟩⟩

/-- In a reachable state a DATA write has no defined result exactly when it is longer than what
is left of the sector, which includes every write while nothing is pending. -/
theorem reachable_dataWrite_outOfBounds {ata : AtaDev σ} (h : Reachable io ata)
    (data : List (BitVec 8)) :
    dataWrite io ata.cur data = .error .outOfBounds ↔ ata.cur.bytesToRw.toNat < data.length := by
  rw [dataWrite_outOfBounds_iff, AtaDev.cur, reachable_copyFits_iff h]
  omega

/-- A one-byte DATA write right after `ata_init`, with nothing pending: the copy would go to
`buf[512]`. -/
theorem dataWrite_before_command :
    run imageStdio (some ⟨[0], 0⟩) none [.data 0#32 (.write [0#8])] = .error .outOfBounds := by
  have h := (reachable_dataWrite_outOfBounds (.init ataInit_oneByteMaster) [0#8]).mpr (by decide)
  rw [run, ataInit_oneByteMaster, Except.ok_bind, serve, step_dataWrite, h]
  rfl

/-! ## Streams that are `NULL` -/

theorem getImgSize_some (io : Stdio σ) (f : σ) : ∃ n f', getImgSize io (some f) = .ok (n, f') := by
  simp only [getImgSize]
  split_ifs <;> exact ⟨_, _, rfl⟩

/-- `ata_init` has no defined result exactly when the `assert` fails, or when it measures a `NULL`
stream: the master's when it is absent, or the master's again, for the slave, after an empty
master's stream was set to `NULL`. -/
theorem ataInit_error_iff {master slave : Option σ} {e : Fault} :
    ataInit io master slave = .error e ↔
      master = none ∧ e = (if slave.isNone then .assertFailed else .nullStream) ∨
      ∃ f n f', master = some f ∧ getImgSize io (some f) = .ok (n, f') ∧
        divRoundUp n sectorSize = 0 ∧ e = .nullStream := by
  unfold ataInit
  cases master with
  | none => cases slave <;> simp [getImgSize, eq_comm]
  | some f =>
    obtain ⟨n, f', hm⟩ := getImgSize_some io f
    simp only [Option.isNone_some, Bool.false_eq_true, false_and, if_false, hm, Except.ok_bind,
      reduceCtorEq, exists_and_left, exists_eq_left', Option.some.injEq, false_or]
    split
    · rename_i h0
      simp [getImgSize, h0, eq_comm]
    · rename_i h0
      obtain ⟨n', f'', hm'⟩ := getImgSize_some io f'
      simp [Drive.zeroed, hm', h0]

/-- `ata_init` without a master measures the master's stream, `NULL`, whatever the slave. -/
theorem ataInit_without_master (slave : σ) : ataInit io none (some slave) = .error .nullStream :=
  ataInit_error_iff.mpr (.inl ⟨rfl, rfl⟩)

end Rvvm.Ata
