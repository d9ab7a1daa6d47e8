import Rvvm.Hart.State

/-!
# The queue of external interrupts

Other threads raise an interrupt by setting its bit in `ev_int_mask` and raising `ev_int`; the
`ev_int` branch of the hart loop folds `ev_int_mask` into `ip`. Nothing ever clears
`ev_int_mask`: in the event model, where each post is one step, `run_evIntMask` shows it holds
exactly the causes raised so far in the run. `Rvvm.Hart.Posting` takes the posts apart into their
loads and stores.
-/

namespace Rvvm.Hart

/-- The causes a run of events raises through `riscv32_interrupt`; a timer post of
`global_irq_handler` is the post of `INTERRUPT_MTIMER`. -/
def raisedBy : List Event → BitVec 32
  | [] => 0
  | .interrupt cause :: events => bit cause ||| raisedBy events
  | _ :: events => raisedBy events

theorem riscv32HandleIp_evIntMask (s : HartState) (wfi : Bool) :
    (riscv32HandleIp s wfi).2.evIntMask = s.evIntMask := by
  unfold riscv32HandleIp
  split
  · split
    · split <;> rfl
    · rfl
  · rfl

/-- No iteration of the hart loop drains `ev_int_mask`. -/
theorem riscv32RunEvent_evIntMask (s : HartState) (timerPending : Bool) :
    (riscv32RunEvent s timerPending).evIntMask = s.evIntMask := by
  unfold riscv32RunEvent
  dsimp only
  split
  · rfl
  · split
    · have h := riscv32HandleIp_evIntMask (HartState.fold { s with waitEvent := 1 } timerPending)
        false
      split <;> rename_i heq <;> rw [heq] at h <;> exact h
    · rfl

/-- Each event adds to `ev_int_mask` exactly the cause it raises. -/
theorem step_evIntMask (s : HartState) (e : Event) :
    (s.step e).evIntMask = s.evIntMask ||| raisedBy [e] := by
  cases e with
  | interrupt cause => simp [HartState.step, riscv32Interrupt, raisedBy]
  | handleIp wfi => simp [HartState.step, riscv32HandleIp_evIntMask, raisedBy]
  | runEvent timerPending => simp [HartState.step, riscv32RunEvent_evIntMask, raisedBy]
  | trap cause tval => simp [HartState.step, riscv32Trap, HartState.enter, raisedBy]
  | csrWrite csr v => cases csr <;> simp [HartState.step, csrWrite, raisedBy]

/-- `ev_int_mask` is what it was plus every cause the run raised. -/
theorem run_evIntMask (s : HartState) (events : List Event) :
    (s.run events).evIntMask = s.evIntMask ||| raisedBy events := by
  induction events generalizing s with
  | nil => simp [raisedBy]
  | cons e events ih =>
    rw [HartState.run_cons, ih, step_evIntMask, BitVec.or_assoc]
    congr 1
    cases e <;> simp [raisedBy]

end Rvvm.Hart
