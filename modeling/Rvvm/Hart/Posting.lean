import Rvvm.Hart.Events

/-!
# Posting interrupts to a running hart

`riscv32_interrupt`, like the body of the scan loop of `global_irq_handler`, posts a cause with
two plain stores and an atomic one. `ev_int_mask |= (1 << cause)` is a load of `ev_int_mask` and
a store of it, then come `ev_int = true` and the release store of `0` to `wait_event`. The hart
thread, in `riscv32_run_impl`, stores `1` to `wait_event` and runs until it reads `0` there. It
then tests `ev_trap` and `ev_int`, loads `ev_int_mask` into `ip`, clears `ev_int` and checks the
pending interrupts. `Sys` is one hart with any number of posting threads. A step (`Sys.step`) is
one load or store of one thread, so a list of steps is an interleaving. Loads and stores are
taken in one order, as on a sequentially consistent machine.

Interleaved, the steps give the following.

* Whatever the interleaving and however many threads post, every bit of `ev_int_mask` was posted,
  and a fold adds no other bit to `ip` (`reachable_evIntMask_posted`).
* With two posting threads the unsynchronised `|=` loses updates. A cause missing from
  `ev_int_mask` and from every copy of it that a poster holds stays missing until it is posted
  again (`missing_cause_stays`). One interleaving of a `riscv32_interrupt` with a timer post
  takes the posted cause out of the mask for good (`racing_posts_lose_cause`).
* With one posting thread (in the sources the IRQ thread is the only caller), `ev_int_mask` is the
  mask the event model gives for the same posts, in the order of their stores
  (`single_poster_evIntMask`). So every fold after a post sets its cause in `ip`
  (`single_poster_fold`). Nothing drains the mask: a cause the guest cleared in `ip` comes back
  at the next fold, whatever was posted in between (`cleared_cause_refolded`).
* A post can still miss its fold. If it lands between the hart's load of `ev_int_mask` and its
  clear of `ev_int`, the flag ends clear, and until some thread raises `ev_int` again the hart
  does not fold (`quiet_no_fold`): the cause waits in `ev_int_mask` for the next post
  (`stranded_post`).
* A wake can also be taken by the `ev_trap` branch. If a post lands after a guest trap and before
  the hart tests `ev_trap`, the branch jumps to the trap vector, and the store of `1` at the top of
  the loop overwrites the post's `0`. Until another thread stores to `wait_event`, the hart thread
  alone never folds: `ev_int` stays set and the cause waits in `ev_int_mask` (`armed_no_fold`,
  `trap_defers_post`).

The list of posted causes in `Sys` is ghost state: the code keeps no such list.
-/

namespace Rvvm.Hart

/-- An event of the guest's own instructions inside `riscv32_run_till_event`: a trap, a check of
`riscv32_handle_ip` from WFI, or a CSR write. -/
def Event.byGuest : Event → Bool
  | .interrupt _ | .runEvent _ => false
  | _ => true

/-- An event of the hart's own thread that marks `ev_trap` whenever it stores `0` to
`wait_event`: a trap, the WFI check `riscv32_handle_ip(vm, true)`, or a CSR write, which stores
nothing. In the sources `riscv32_handle_ip(vm, false)` is called by the hart loop alone. -/
def Event.marksTrap : Event → Bool
  | .trap _ _ | .handleIp true | .csrWrite _ _ => true
  | _ => false

/-- `if (riscv32_handle_ip(vm, false)) riscv32_trap_jump(vm);`, the end of the `ev_int` branch of
`riscv32_run_impl`. -/
def handleIpJump (s : HartState) : HartState :=
  match riscv32HandleIp s false with
  | (true, s) => riscv32TrapJump s
  | (false, s) => s

@[simp] theorem getLsbD_bit (n i : Nat) : (bit n).getLsbD i = (decide (n < 32) && decide (n = i)) :=
  BitVec.getLsbD_twoPow n i

theorem raisedBy_append (a b : List Event) : raisedBy (a ++ b) = raisedBy a ||| raisedBy b := by
  induction a with
  | nil => simp [raisedBy]
  | cons e a ih => cases e <;> simp [raisedBy, ih, BitVec.or_assoc]

theorem raisedBy_byGuest {e : Event} (he : e.byGuest = true) : raisedBy [e] = 0 := by
  cases e <;> simp_all [raisedBy, Event.byGuest]

/-- A cause among the posts is set in the mask of the posts. -/
theorem getLsbD_raisedBy {c : Nat} {cs : List Nat} (hc : c ∈ cs) (hlt : c < 32) :
    (raisedBy (cs.map .interrupt)).getLsbD c = true := by
  induction cs with
  | nil => cases hc
  | cons c' cs ih =>
    rcases List.mem_cons.mp hc with rfl | hc
    · simp [raisedBy, hlt]
    · simp [raisedBy, ih hc]

namespace Posting

/-- Every bit set in `x` is set in `y`. -/
def Within (x y : BitVec 32) : Prop := ∀ i, x.getLsbD i = true → y.getLsbD i = true

/-- Where a posting thread is in `riscv32_interrupt`. -/
inductive PostPc where
  /-- Not posting. -/
  | idle
  /-- Has loaded `ev_int_mask` as `r`, and stores `r | (1 << cause)` next. -/
  | loaded (cause : Nat) (r : BitVec 32)
  /-- Has stored `ev_int_mask`; `ev_int = true` is next. -/
  | stored
  /-- Has raised `ev_int`; the store of `0` to `wait_event` is next. -/
  | raised
  deriving DecidableEq

/-- Where the hart thread is in `riscv32_run_impl`. -/
inductive LoopPc where
  /-- At the top of the loop, before the store of `1` to `wait_event`. -/
  | top
  /-- Inside `riscv32_run_till_event`. -/
  | running
  /-- `riscv32_run_till_event` has returned; `ev_trap` and `ev_int` are tested next. -/
  | woken
  /-- In the `ev_int` branch, before `csr.ip |= ev_int_mask`. -/
  | pending
  /-- After the fold and the timer test, before `ev_int = false`. -/
  | folded
  deriving DecidableEq

/-- A hart with `n` threads posting to it: the hart's state, where its loop is, where each
poster is, and, as ghost state, the causes whose store to `ev_int_mask` has happened, in order. -/
structure Sys (n : Nat) where
  hart : HartState
  loop : LoopPc
  post : Fin n → PostPc
  posted : List Nat

/-- What one thread does next. -/
inductive Act (n : Nat) where
  /-- Poster `t` starts posting `cause`: the load of `ev_int_mask`. -/
  | load (t : Fin n) (cause : Nat)
  /-- The store of `ev_int_mask`. -/
  | storeMask (t : Fin n)
  /-- `ev_int = true`. -/
  | raise (t : Fin n)
  /-- The store of `0` to `wait_event`. -/
  | wake (t : Fin n)
  /-- The hart stores `1` to `wait_event`. -/
  | arm
  /-- An instruction of the guest, inside `riscv32_run_till_event`. -/
  | exec (e : Event)
  /-- `riscv32_run_till_event` returns. -/
  | leave
  /-- The tests of `ev_trap` and `ev_int`; the `ev_trap` branch is hart-local and taken whole. -/
  | test
  /-- `csr.ip |= ev_int_mask` and the timer test, with `rvtimer_pending` answering
  `timerPending`. -/
  | fold (timerPending : Bool)
  /-- `ev_int = false`, then `riscv32_handle_ip` and the jump to the trap vector. -/
  | clear

variable {n : Nat}

/-- A hart that has not entered its loop yet, and no thread posting. -/
def Sys.init (n : Nat) (s0 : HartState) : Sys n := ⟨s0, .top, fun _ => .idle, []⟩

/-- The causes posted so far, as a mask. -/
def Sys.postedMask (S : Sys n) : BitVec 32 := raisedBy (S.posted.map .interrupt)

/-- One load or store, or `none` when the thread is not at a point where it makes it.
`riscv32_run_till_event` is not in the sources; it returns once it reads `0` in `wait_event`,
which a trap of the guest also stores. -/
def Sys.step (S : Sys n) : Act n → Option (Sys n)
  | .load t cause =>
    match S.post t with
    | .idle => some { S with post := Function.update S.post t (.loaded cause S.hart.evIntMask) }
    | _ => none
  | .storeMask t =>
    match S.post t with
    | .loaded cause r =>
      some { S with hart := { S.hart with evIntMask := r ||| bit cause },
                    post := Function.update S.post t .stored, posted := S.posted ++ [cause] }
    | _ => none
  | .raise t =>
    match S.post t with
    | .stored =>
      some { S with hart := { S.hart with evInt := true }, post := Function.update S.post t .raised }
    | _ => none
  | .wake t =>
    match S.post t with
    | .raised =>
      some { S with hart := { S.hart with waitEvent := 0 }, post := Function.update S.post t .idle }
    | _ => none
  | .arm =>
    match S.loop with
    | .top => some { S with hart := { S.hart with waitEvent := 1 }, loop := .running }
    | _ => none
  | .exec e =>
    match S.loop, e.byGuest with
    | .running, true => some { S with hart := S.hart.step e }
    | _, _ => none
  | .leave =>
    match S.loop with
    | .running => if S.hart.waitEvent = 0 then some { S with loop := .woken } else none
    | _ => none
  | .test =>
    match S.loop with
    | .woken =>
      if S.hart.evTrap then
        some { S with hart := riscv32TrapJump { S.hart with evTrap := false }, loop := .top }
      else if S.hart.evInt then some { S with loop := .pending }
      else some { S with loop := .top }
    | _ => none
  | .fold timerPending =>
    match S.loop with
    | .pending =>
      some { S with hart := { S.hart with ip := foldIp S.hart.ip S.hart.evIntMask timerPending },
                    loop := .folded }
    | _ => none
  | .clear =>
    match S.loop with
    | .folded =>
      some { S with hart := handleIpJump { S.hart with evInt := false }, loop := .top }
    | _ => none

/-- An interleaving: steps one after another, up to the first one that cannot be made. -/
def Sys.run (S : Sys n) : List (Act n) → Option (Sys n)
  | [] => some S
  | a :: acts => S.step a >>= fun S => S.run acts

/-- The states some interleaving reaches from a hart `s0` that has not entered its loop. -/
inductive Reachable (s0 : HartState) : Sys n → Prop
  | init : Reachable s0 (Sys.init n s0)
  | step {S S' : Sys n} (a : Act n) : Reachable s0 S → S.step a = some S' → Reachable s0 S'

theorem Reachable.run {s0 : HartState} {S S' : Sys n} (h : Reachable s0 S) {acts : List (Act n)}
    (hr : S.run acts = some S') : Reachable s0 S' := by
  induction acts generalizing S with
  | nil => cases hr; exact h
  | cons a acts ih =>
    obtain ⟨S1, h1, hr⟩ := Option.bind_eq_some.mp hr
    exact ih (h.step a h1) hr

/-- A property that every step keeps, and that holds at the start, holds after every run. -/
theorem Sys.run_induction (P : Sys n → Prop) {acts : List (Act n)} (Q : Act n → Prop)
    (hstep : ∀ S S' a, P S → Q a → S.step a = some S' → P S') (hQ : ∀ a ∈ acts, Q a)
    {S S' : Sys n} (hS : P S) (hr : S.run acts = some S') : P S' := by
  induction acts generalizing S with
  | nil => cases hr; exact hS
  | cons a acts ih =>
    obtain ⟨S1, h1, hr⟩ := Option.bind_eq_some.mp hr
    exact ih (fun a ha => hQ a (List.mem_cons_of_mem _ ha))
      (hstep S S1 a hS (hQ a (List.mem_cons_self _ _)) h1) hr

/-! ## What a step does to `ev_int_mask` -/

theorem handleIpJump_evIntMask (s : HartState) : (handleIpJump s).evIntMask = s.evIntMask := by
  have h := riscv32HandleIp_evIntMask s false
  unfold handleIpJump
  split <;> rename_i heq <;> rw [heq] at h <;> exact h

theorem post_update_loaded {post : Fin n → PostPc} {t u : Fin n} {p : PostPc} {c : Nat}
    {r : BitVec 32} (h : Function.update post t p u = .loaded c r) :
    (u = t ∧ p = .loaded c r) ∨ post u = .loaded c r := by
  by_cases hut : u = t
  · subst hut; rw [Function.update_same] at h; exact .inl ⟨rfl, h⟩
  · rw [Function.update_noteq hut] at h; exact .inr h

/-- What every step does to the mask, the posters and the ghost list: a load takes a copy of
`ev_int_mask`, a store of the mask writes that copy with the cause added and records the post,
and no other step touches any of them or creates a copy. -/
theorem step_shape {S S' : Sys n} {a : Act n} (hs : S.step a = some S') :
    (∃ t c, a = .load t c ∧ S.post t = .idle ∧ S'.hart.evIntMask = S.hart.evIntMask ∧
      S'.posted = S.posted ∧ S'.post = Function.update S.post t (.loaded c S.hart.evIntMask)) ∨
    (∃ t c r, a = .storeMask t ∧ S.post t = .loaded c r ∧ S'.hart.evIntMask = r ||| bit c ∧
      S'.posted = S.posted ++ [c] ∧ S'.post = Function.update S.post t .stored) ∨
    (S'.hart.evIntMask = S.hart.evIntMask ∧ S'.posted = S.posted ∧
      ∀ t c r, S'.post t = .loaded c r → S.post t = .loaded c r) := by
  cases a with
  | load t c =>
    simp only [Sys.step] at hs; split at hs <;> cases hs
    exact .inl ⟨t, c, rfl, by assumption, rfl, rfl, rfl⟩
  | storeMask t =>
    simp only [Sys.step] at hs; split at hs <;> cases hs
    exact .inr (.inl ⟨t, _, _, rfl, by assumption, rfl, rfl, rfl⟩)
  | raise t =>
    simp only [Sys.step] at hs; split at hs <;> cases hs
    exact .inr (.inr ⟨rfl, rfl, fun _ _ _ hu => (post_update_loaded hu).resolve_left fun h => PostPc.noConfusion h.2⟩)
  | wake t =>
    simp only [Sys.step] at hs; split at hs <;> cases hs
    exact .inr (.inr ⟨rfl, rfl, fun _ _ _ hu => (post_update_loaded hu).resolve_left fun h => PostPc.noConfusion h.2⟩)
  | arm =>
    simp only [Sys.step] at hs; split at hs <;> cases hs
    exact .inr (.inr ⟨rfl, rfl, fun _ _ _ h => h⟩)
  | exec e =>
    simp only [Sys.step] at hs; split at hs <;> cases hs
    rename_i he
    refine .inr (.inr ⟨?_, rfl, fun _ _ _ h => h⟩)
    rw [step_evIntMask, raisedBy_byGuest he]
    exact BitVec.or_zero
  | leave =>
    simp only [Sys.step] at hs; split at hs
    · split at hs <;> cases hs; exact .inr (.inr ⟨rfl, rfl, fun _ _ _ h => h⟩)
    · cases hs
  | test =>
    simp only [Sys.step] at hs; split at hs
    · split at hs
      · cases hs; exact .inr (.inr ⟨rfl, rfl, fun _ _ _ h => h⟩)
      · split at hs <;> cases hs <;> exact .inr (.inr ⟨rfl, rfl, fun _ _ _ h => h⟩)
    · cases hs
  | fold tp =>
    simp only [Sys.step] at hs; split at hs <;> cases hs
    exact .inr (.inr ⟨rfl, rfl, fun _ _ _ h => h⟩)
  | clear =>
    simp only [Sys.step] at hs; split at hs <;> cases hs
    exact .inr (.inr ⟨handleIpJump_evIntMask _, rfl, fun _ _ _ h => h⟩)

theorem step_fold {S S' : Sys n} {tp : Bool} (hs : S.step (.fold tp) = some S') :
    S.loop = .pending ∧
      S' = { S with hart := { S.hart with ip := foldIp S.hart.ip S.hart.evIntMask tp },
                    loop := .folded } := by
  simp only [Sys.step] at hs; split at hs <;> cases hs; exact ⟨‹_›, rfl⟩

/-! ## Any number of posters: nothing spurious -/

theorem Within.refl (x : BitVec 32) : Within x x := fun _ h => h

theorem Within.trans {x y z : BitVec 32} (h1 : Within x y) (h2 : Within y z) : Within x z :=
  fun i h => h2 i (h1 i h)

theorem Within.or {a b c d : BitVec 32} (h1 : Within a b) (h2 : Within c d) :
    Within (a ||| c) (b ||| d) := fun i h => by
  rw [BitVec.getLsbD_or] at h ⊢
  rcases Bool.or_eq_true_iff.mp h with h | h <;> simp [h1 i, h2 i, h]

/-- The fold adds to `ip` no bit outside `ev_int_mask`. -/
theorem foldIp_within (ip m : BitVec 32) (tp : Bool) : Within (foldIp ip m tp) (ip ||| m) := by
  unfold foldIp
  dsimp only
  split
  · intro i h; simp_all [BitVec.getLsbD_and]
  · exact Within.refl _

theorem postedMask_append {S S' : Sys n} {c : Nat} (h : S'.posted = S.posted ++ [c]) :
    S'.postedMask = S.postedMask ||| bit c := by
  simp [Sys.postedMask, h, raisedBy_append, raisedBy]

/-- Every bit of `ev_int_mask`, and of every copy of it a poster holds, was set at the start or
has been posted. -/
structure Inv (m0 : BitVec 32) (S : Sys n) : Prop where
  mask : Within S.hart.evIntMask (m0 ||| S.postedMask)
  loaded : ∀ t c r, S.post t = .loaded c r → Within r (m0 ||| S.postedMask)

theorem Inv.step {m0 : BitVec 32} {S S' : Sys n} (h : Inv m0 S) {a : Act n}
    (hs : S.step a = some S') : Inv m0 S' := by
  rcases step_shape hs with ⟨t, c, -, -, hmask, hposted, hpost⟩ |
    ⟨t, c, r, -, ht, hmask, hposted, hpost⟩ | ⟨hmask, hposted, hpost⟩
  · have hB : S'.postedMask = S.postedMask := by rw [Sys.postedMask, hposted]; rfl
    refine ⟨by rw [hmask, hB]; exact h.mask, fun u c' r hu => ?_⟩
    rw [hpost] at hu
    rw [hB]
    rcases post_update_loaded hu with ⟨-, hu⟩ | hu
    · cases hu; exact h.mask
    · exact h.loaded u c' r hu
  · have hgrow : ∀ x, Within x (m0 ||| S.postedMask) → Within (x ||| bit c) (m0 ||| S'.postedMask) :=
      fun x hx => by rw [postedMask_append hposted, ← BitVec.or_assoc]; exact hx.or (Within.refl _)
    refine ⟨by rw [hmask]; exact hgrow r (h.loaded t c r ht), fun u c' r' hu => ?_⟩
    rw [hpost] at hu
    rcases post_update_loaded hu with ⟨-, hu⟩ | hu
    · cases hu
    · exact fun i hi => hgrow r' (h.loaded u c' r' hu) i (by simp [hi])
  · have hB : S'.postedMask = S.postedMask := by rw [Sys.postedMask, hposted]; rfl
    exact ⟨by rw [hmask, hB]; exact h.mask, fun u c r hu => by rw [hB]; exact h.loaded u c r (hpost u c r hu)⟩

theorem reachable_inv {s0 : HartState} {S : Sys n} (h : Reachable s0 S) : Inv s0.evIntMask S := by
  induction h with
  | init => exact ⟨fun i hi => by simpa [Sys.init, Sys.postedMask, raisedBy] using hi,
      fun _ _ _ h => PostPc.noConfusion h⟩
  | step _ _ hs ih => exact ih.step hs

/-- Whatever the interleaving and however many threads post, every bit of `ev_int_mask` was set
when the hart entered its loop or has been posted since, and a fold adds no other bit to `ip`. -/
theorem reachable_evIntMask_posted {s0 : HartState} {S : Sys n} (h : Reachable s0 S) :
    Within S.hart.evIntMask (s0.evIntMask ||| S.postedMask) ∧
      ∀ tp S', S.step (.fold tp) = some S' →
        Within S'.hart.ip (S.hart.ip ||| (s0.evIntMask ||| S.postedMask)) := by
  have hinv := reachable_inv h
  refine ⟨hinv.mask, fun tp S' hs => ?_⟩
  obtain ⟨-, rfl⟩ := step_fold hs
  exact (foldIp_within _ _ _).trans ((Within.refl _).or hinv.mask)

/-! ## Two posters: a lost update -/

/-- Cause `c` is set neither in `ev_int_mask` nor in any copy of it a poster holds, and no poster
is about to store it. -/
def Sys.Missing (c : Nat) (S : Sys n) : Prop :=
  S.hart.evIntMask.getLsbD c = false ∧
    ∀ t c' r, S.post t = .loaded c' r → c' ≠ c ∧ r.getLsbD c = false

theorem Sys.Missing.step {c : Nat} {S S' : Sys n} (hm : S.Missing c) {a : Act n}
    (ha : ∀ t, a ≠ .load t c) (hs : S.step a = some S') : S'.Missing c := by
  rcases step_shape hs with ⟨t, c', rfl, -, hmask, -, hpost⟩ |
    ⟨t, c', r, -, ht, hmask, -, hpost⟩ | ⟨hmask, -, hpost⟩
  · refine ⟨by rw [hmask]; exact hm.1, fun u c'' r hu => ?_⟩
    rw [hpost] at hu
    rcases post_update_loaded hu with ⟨-, hu⟩ | hu
    · cases hu; exact ⟨fun h => ha t (by rw [h]), hm.1⟩
    · exact hm.2 u c'' r hu
  · obtain ⟨hne, hr⟩ := hm.2 t c' r ht
    refine ⟨by simp [hmask, hr, hne], fun u c'' r' hu => ?_⟩
    rw [hpost] at hu
    rcases post_update_loaded hu with ⟨-, hu⟩ | hu
    · cases hu
    · exact hm.2 u c'' r' hu
  · exact ⟨by rw [hmask]; exact hm.1, fun u c' r hu => hm.2 u c' r (hpost u c' r hu)⟩

/-- A cause missing from `ev_int_mask` and from every copy of it the posters hold stays missing
from `ev_int_mask`, and so from every fold, until some thread starts posting it again. -/
theorem missing_cause_stays {c : Nat} {S S' : Sys n} (hm : S.Missing c) {acts : List (Act n)}
    (hr : S.run acts = some S') (hno : ∀ t, Act.load t c ∉ acts) :
    S'.hart.evIntMask.getLsbD c = false :=
  (Sys.run_induction (Sys.Missing c) (fun a => ∀ t, a ≠ .load t c)
    (fun _ _ _ hm ha hs => hm.step ha hs) (fun _ ha t h => hno t (h ▸ ha)) hm hr).1

/-- Poster 0 posts cause 9 (a `riscv32_interrupt`), poster 1 the machine timer (the IRQ thread);
both load `ev_int_mask` before either stores it. -/
def racing : List (Act 2) :=
  [.load 0 9, .load 1 interruptMtimer, .storeMask 0, .storeMask 1, .raise 0, .wake 0, .raise 1,
    .wake 1]

theorem racing_posts_lose_cause :
    ∃ S, (Sys.init 2 (HartState.init 0)).run racing = some S ∧ 9 ∈ S.posted ∧
      ∀ acts S', S.run acts = some S' → (∀ t, Act.load t 9 ∉ acts) →
        S'.hart.evIntMask.getLsbD 9 = false := by
  obtain ⟨S, hrun⟩ : ∃ S, (Sys.init 2 (HartState.init 0)).run racing = some S := ⟨_, rfl⟩
  have hidle : ∀ t : Fin 2, S.post t = .idle := by cases hrun; decide
  have hm : S.Missing 9 := ⟨by cases hrun; rfl, fun t _ _ h => by rw [hidle t] at h; cases h⟩
  have hposted : S.posted = [9, interruptMtimer] := by cases hrun; rfl
  refine ⟨S, hrun, by simp [hposted], fun acts S' hr hno => missing_cause_stays hm hr hno⟩

/-- The racing posts leave nothing in `ev_int_mask`, or in `ip` after a fold, that was not posted. -/
theorem racing_within_posted :
    ∃ S, (Sys.init 2 (HartState.init 0)).run racing = some S ∧
      Within S.hart.evIntMask ((HartState.init 0).evIntMask ||| S.postedMask) ∧
      ∀ tp S', S.step (.fold tp) = some S' →
        Within S'.hart.ip (S.hart.ip ||| ((HartState.init 0).evIntMask ||| S.postedMask)) := by
  obtain ⟨S, hrun⟩ : ∃ S, (Sys.init 2 (HartState.init 0)).run racing = some S := ⟨_, rfl⟩
  exact ⟨S, hrun, reachable_evIntMask_posted (Reachable.init.run hrun)⟩

/-! ## One poster: no post is lost -/

/-- With one posting thread: `ev_int_mask` is the initial mask with every posted cause added,
and a copy the poster holds is the current mask. -/
structure Exact (m0 : BitVec 32) (S : Sys 1) : Prop where
  mask : S.hart.evIntMask = m0 ||| S.postedMask
  loaded : ∀ c r, S.post 0 = .loaded c r → r = S.hart.evIntMask

theorem Exact.step {m0 : BitVec 32} {S S' : Sys 1} (h : Exact m0 S) {a : Act 1}
    (hs : S.step a = some S') : Exact m0 S' := by
  rcases step_shape hs with ⟨t, c, -, -, hmask, hposted, hpost⟩ |
    ⟨t, c, r, -, ht, hmask, hposted, hpost⟩ | ⟨hmask, hposted, hpost⟩
  · obtain rfl : t = 0 := Subsingleton.elim _ _
    have hB : S'.postedMask = S.postedMask := by rw [Sys.postedMask, hposted]; rfl
    refine ⟨by rw [hmask, hB]; exact h.mask, fun c' r hu => ?_⟩
    rw [hpost, Function.update_same] at hu
    cases hu; exact hmask.symm
  · obtain rfl : t = 0 := Subsingleton.elim _ _
    refine ⟨?_, fun c' r' hu => ?_⟩
    · rw [hmask, h.loaded c r ht, h.mask, postedMask_append hposted, BitVec.or_assoc]
    · rw [hpost, Function.update_same] at hu; cases hu
  · have hB : S'.postedMask = S.postedMask := by rw [Sys.postedMask, hposted]; rfl
    exact ⟨by rw [hmask, hB]; exact h.mask, fun c r hu => by rw [hmask]; exact h.loaded c r (hpost 0 c r hu)⟩

theorem reachable_exact {s0 : HartState} {S : Sys 1} (h : Reachable s0 S) : Exact s0.evIntMask S := by
  induction h with
  | init => exact ⟨by simp [Sys.init, Sys.postedMask, raisedBy], fun _ _ h => PostPc.noConfusion h⟩
  | step _ _ hs ih => exact ih.step hs

/-- With one posting thread, in every interleaving `ev_int_mask` is what the event model gives
after the same posts, made one after another in the order of their stores to the mask. -/
theorem single_poster_evIntMask {s0 : HartState} {S : Sys 1} (h : Reachable s0 S) :
    S.hart.evIntMask = (s0.run (S.posted.map .interrupt)).evIntMask := by
  rw [run_evIntMask]
  exact (reachable_exact h).mask

/-- A post of cause 9 made whole while the hart runs; the hart wakes and tests `ev_int`. -/
def postThenWake : List (Act 1) :=
  [.arm, .load 0 9, .storeMask 0, .raise 0, .wake 0, .leave, .test]

theorem one_post_mask :
    ∃ S, (Sys.init 1 (HartState.init 0)).run postThenWake = some S ∧
      S.hart.evIntMask = ((HartState.init 0).run (S.posted.map .interrupt)).evIntMask := by
  obtain ⟨S, hrun⟩ : ∃ S, (Sys.init 1 (HartState.init 0)).run postThenWake = some S := ⟨_, rfl⟩
  exact ⟨S, hrun, single_poster_evIntMask (Reachable.init.run hrun)⟩

/-- The fold sets every bit of `ev_int_mask` in `ip` but the machine timer bit. -/
theorem getLsbD_foldIp {ip m : BitVec 32} {c : Nat} (hm : m.getLsbD c = true)
    (hne : c ≠ interruptMtimer) (tp : Bool) : (foldIp ip m tp).getLsbD c = true := by
  have hlt := BitVec.lt_of_getLsbD hm
  unfold foldIp
  dsimp only
  split <;> simp [BitVec.getLsbD_and, hm, hlt, Ne.symm hne]

/-- Under the exact mask, a fold sets in `ip` every cause posted so far, the machine timer bit
apart. -/
theorem Exact.fold_posted {m0 : BitVec 32} {S S' : Sys 1} (h : Exact m0 S) {tp : Bool}
    (hs : S.step (.fold tp) = some S') {c : Nat} (hc : c ∈ S.posted) (hlt : c < 32)
    (hne : c ≠ interruptMtimer) : S'.hart.ip.getLsbD c = true := by
  obtain ⟨-, rfl⟩ := step_fold hs
  have hm : S.hart.evIntMask.getLsbD c = true := by
    rw [h.mask, BitVec.getLsbD_or, Sys.postedMask, getLsbD_raisedBy hc hlt, Bool.or_true]
  exact getLsbD_foldIp hm hne tp

/-- With one posting thread, every fold of the hart loop sets in `ip` every cause posted before
it, the machine timer bit apart, whatever the interleaving. -/
theorem single_poster_fold {s0 : HartState} {S S' : Sys 1} (h : Reachable s0 S) {tp : Bool}
    (hs : S.step (.fold tp) = some S') {c : Nat} (hc : c ∈ S.posted) (hlt : c < 32)
    (hne : c ≠ interruptMtimer) : S'.hart.ip.getLsbD c = true :=
  (reachable_exact h).fold_posted hs hc hlt hne

theorem one_post_folded :
    ∃ S S', (Sys.init 1 (HartState.init 0)).run postThenWake = some S ∧
      S.step (.fold false) = some S' ∧ 9 ∈ S.posted ∧ S'.hart.ip.getLsbD 9 = true := by
  obtain ⟨S, hrun⟩ : ∃ S, (Sys.init 1 (HartState.init 0)).run postThenWake = some S := ⟨_, rfl⟩
  obtain ⟨S', hs⟩ : ∃ S', S.step (.fold false) = some S' := by cases hrun; exact ⟨_, rfl⟩
  have hc : 9 ∈ S.posted := by
    rw [show S.posted = [9] by cases hrun; rfl]
    exact List.mem_singleton_self 9
  exact ⟨S, S', hrun, hs, hc,
    single_poster_fold (Reachable.init.run hrun) hs hc (by decide) (by decide)⟩

/-- After the fold of a post of cause 9, the loop goes on: `riscv32_handle_ip` finds nothing
enabled, the guest writes `0` to `ip`, and the thread posts the machine timer, as
`global_irq_handler` does. No cause 9 is posted after the fold. -/
def clearThenTimer : List (Act 1) :=
  [.clear, .arm, .exec (.csrWrite .ip 0), .load 0 interruptMtimer, .storeMask 0, .raise 0,
    .wake 0, .leave, .test]

/-- The guest clears bit 9 of `ip` after it was folded, and the next fold, woken by a timer post
alone, sets it again. -/
theorem cleared_cause_refolded :
    ∃ S₀ S₁ S₂ S₃, (Sys.init 1 (HartState.init 0)).run postThenWake = some S₀ ∧
      S₀.step (.fold false) = some S₁ ∧ S₁.run clearThenTimer = some S₂ ∧
      S₂.step (.fold false) = some S₃ ∧ S₁.hart.ip.getLsbD 9 = true ∧
      (∀ t, Act.load t 9 ∉ clearThenTimer) ∧ S₂.hart.ip.getLsbD 9 = false ∧
      S₃.hart.ip.getLsbD 9 = true := by
  obtain ⟨S₀, h₀⟩ : ∃ S, (Sys.init 1 (HartState.init 0)).run postThenWake = some S := ⟨_, rfl⟩
  obtain ⟨S₁, h₁⟩ : ∃ S, S₀.step (.fold false) = some S := by cases h₀; exact ⟨_, rfl⟩
  obtain ⟨S₂, h₂⟩ : ∃ S, S₁.run clearThenTimer = some S := by cases h₀; cases h₁; exact ⟨_, rfl⟩
  obtain ⟨S₃, h₃⟩ : ∃ S, S₂.step (.fold false) = some S := by
    cases h₀; cases h₁; cases h₂; exact ⟨_, rfl⟩
  have hposted : 9 ∈ S₂.posted := by
    rw [show S₂.posted = [9, interruptMtimer] by cases h₀; cases h₁; cases h₂; rfl]
    exact List.mem_cons_self _ _
  have hreach := ((Reachable.init.run h₀).step _ h₁).run h₂
  refine ⟨S₀, S₁, S₂, S₃, h₀, h₁, h₂, h₃, by cases h₀; cases h₁; rfl, fun t ht => ?_,
    by cases h₀; cases h₁; cases h₂; rfl,
    (reachable_exact hreach).fold_posted h₃ hposted (by decide) (by decide)⟩
  simp [clearThenTimer, interruptMtimer] at ht

/-! ## A post that misses the fold -/

/-- `ev_int` is clear and the hart is outside the `ev_int` branch. -/
def Sys.Quiet (S : Sys n) : Prop :=
  S.hart.evInt = false ∧ (S.loop = .top ∨ S.loop = .running ∨ S.loop = .woken)

theorem riscv32HandleIp_evInt (s : HartState) (wfi : Bool) :
    (riscv32HandleIp s wfi).2.evInt = s.evInt := by
  unfold riscv32HandleIp
  split
  · split
    · split <;> rfl
    · rfl
  · rfl

theorem step_evInt_byGuest (s : HartState) {e : Event} (he : e.byGuest = true) :
    (s.step e).evInt = s.evInt := by
  cases e with
  | trap => rfl
  | handleIp wfi => exact riscv32HandleIp_evInt s wfi
  | csrWrite csr v => cases csr <;> rfl
  | interrupt => cases he
  | runEvent => cases he

/-- Every step but a raise of `ev_int` keeps the hart out of the `ev_int` branch. -/
theorem Sys.Quiet.step {S S' : Sys n} (hq : S.Quiet) {a : Act n} (ha : ∀ t, a ≠ .raise t)
    (hs : S.step a = some S') : S'.Quiet := by
  obtain ⟨hint, hloop⟩ := hq
  cases a with
  | raise t => exact absurd rfl (ha t)
  | load | storeMask | wake =>
    simp only [Sys.step] at hs; split at hs <;> cases hs; exact ⟨hint, hloop⟩
  | arm => simp only [Sys.step] at hs; split at hs <;> cases hs; exact ⟨hint, .inr (.inl rfl)⟩
  | exec e =>
    simp only [Sys.step] at hs; split at hs <;> cases hs
    exact ⟨(step_evInt_byGuest _ ‹_›).trans hint, hloop⟩
  | leave =>
    simp only [Sys.step] at hs; split at hs
    · split at hs <;> cases hs; exact ⟨hint, .inr (.inr rfl)⟩
    · cases hs
  | test =>
    simp only [Sys.step] at hs; split at hs
    · split at hs
      · cases hs; exact ⟨hint, .inl rfl⟩
      · rw [if_neg (by simp [hint])] at hs; cases hs; exact ⟨hint, .inl rfl⟩
    · cases hs
  | fold | clear => rcases hloop with h | h | h <;> simp only [Sys.step, h] at hs <;> cases hs

/-- Once `ev_int` is clear with the hart outside the `ev_int` branch, the hart does not fold
`ev_int_mask` into `ip` again until some thread raises `ev_int`, whatever else happens. -/
theorem quiet_no_fold {S S' : Sys n} (hq : S.Quiet) {acts : List (Act n)}
    (hr : S.run acts = some S') (hno : ∀ t, Act.raise t ∉ acts) :
    S'.hart.evInt = false ∧ ∀ tp, S'.step (.fold tp) = none := by
  have hq' : S'.Quiet := Sys.run_induction Sys.Quiet (fun a => ∀ t, a ≠ .raise t)
    (fun _ _ _ hq ha hs => hq.step ha hs) (fun _ ha t h => hno t (h ▸ ha)) hq hr
  refine ⟨hq'.1, fun tp => ?_⟩
  rcases hq'.2 with h | h | h <;> simp only [Sys.step, h]

/-- The hart folds a timer post; a post of cause 9 stores the mask and raises `ev_int` before the
hart clears it. The cause is in `ev_int_mask` but not in `ip`, and no later fold happens without
another raise. -/
def stranded : List (Act 1) :=
  [.arm, .load 0 interruptMtimer, .storeMask 0, .raise 0, .wake 0, .leave, .test, .fold false,
    .load 0 9, .storeMask 0, .raise 0, .wake 0, .clear]

theorem stranded_post :
    ∃ S, (Sys.init 1 (HartState.init 0)).run stranded = some S ∧ 9 ∈ S.posted ∧
      S.hart.evIntMask.getLsbD 9 = true ∧ S.hart.ip.getLsbD 9 = false ∧
      ∀ acts S', S.run acts = some S' → (∀ t, Act.raise t ∉ acts) →
        S'.hart.evInt = false ∧ ∀ tp, S'.step (.fold tp) = none := by
  obtain ⟨S, hrun⟩ : ∃ S, (Sys.init 1 (HartState.init 0)).run stranded = some S := ⟨_, rfl⟩
  have hposted : S.posted = [interruptMtimer, 9] := by cases hrun; rfl
  have hq : S.Quiet := ⟨by cases hrun; rfl, .inl (by cases hrun; rfl)⟩
  refine ⟨S, hrun, by simp [hposted], by cases hrun; rfl, by cases hrun; rfl,
    fun acts S' hr hno => quiet_no_fold hq hr hno⟩


/-! ## A wake the `ev_trap` branch takes -/

/-- Such an event keeps `ev_int` and `ev_int_mask`, and leaves `wait_event` at `0` only with
`ev_trap` set, if it found it so. -/
theorem step_marksTrap (s : HartState) {e : Event} (he : e.marksTrap = true)
    (h : s.waitEvent = 0 → s.evTrap = true) :
    ((s.step e).waitEvent = 0 → (s.step e).evTrap = true) ∧ (s.step e).evInt = s.evInt ∧
      (s.step e).evIntMask = s.evIntMask := by
  match e, he with
  | .trap _ _, _ => exact ⟨fun _ => rfl, rfl, rfl⟩
  | .handleIp true, _ =>
    refine ⟨?_, riscv32HandleIp_evInt s true, riscv32HandleIp_evIntMask s true⟩
    simp only [HartState.step, riscv32HandleIp]
    split
    · split
      · exact fun _ => rfl
      · exact h
    · exact h
  | .csrWrite csr _, _ => cases csr <;> exact ⟨h, rfl, rfl⟩

/-- A step of the hart thread alone, its guest events marking `ev_trap` when they wake it. -/
def Act.ofHart : Act n → Bool
  | .arm | .leave | .test | .fold _ | .clear => true
  | .exec e => e.marksTrap
  | _ => false

/-- The hart is outside the `ev_int` branch, and `riscv32_run_till_event` can only return on a
wake that marked `ev_trap`. -/
def Sys.Armed (S : Sys n) : Prop :=
  S.loop = .top ∨ (S.loop = .running ∧ (S.hart.waitEvent = 0 → S.hart.evTrap = true)) ∨
    (S.loop = .woken ∧ S.hart.evTrap = true)

theorem Sys.Armed.step {S S' : Sys n} (hA : S.Armed) {a : Act n} (ha : a.ofHart = true)
    (hs : S.step a = some S') :
    S'.Armed ∧ S'.hart.evInt = S.hart.evInt ∧ S'.hart.evIntMask = S.hart.evIntMask := by
  cases a with
  | load | storeMask | raise | wake => cases ha
  | arm =>
    simp only [Sys.step] at hs; split at hs <;> cases hs
    exact ⟨.inr (.inl ⟨rfl, fun h => absurd h Int.one_ne_zero⟩), rfl, rfl⟩
  | exec e =>
    simp only [Sys.step] at hs; split at hs <;> cases hs
    rename_i hloop _
    have hw : S.hart.waitEvent = 0 → S.hart.evTrap = true := by
      rcases hA with h | ⟨-, h⟩ | ⟨h, -⟩ <;> first | exact h | simp [hloop] at h
    obtain ⟨hw', hint, hmask⟩ := step_marksTrap S.hart ha hw
    exact ⟨.inr (.inl ⟨hloop, hw'⟩), hint, hmask⟩
  | leave =>
    simp only [Sys.step] at hs; split at hs
    · split at hs <;> cases hs
      rename_i hloop hw
      rcases hA with h | ⟨-, h⟩ | ⟨h, -⟩
      · simp [hloop] at h
      · exact ⟨.inr (.inr ⟨rfl, h hw⟩), rfl, rfl⟩
      · simp [hloop] at h
    · cases hs
  | test =>
    simp only [Sys.step] at hs; split at hs
    · rename_i hloop
      have htrap : S.hart.evTrap = true := by
        rcases hA with h | ⟨h, -⟩ | ⟨-, h⟩ <;> first | exact h | simp [hloop] at h
      rw [if_pos htrap] at hs
      cases hs
      exact ⟨.inl rfl, rfl, rfl⟩
    · cases hs
  | fold | clear =>
    rcases hA with h | ⟨h, -⟩ | ⟨h, -⟩ <;> simp only [Sys.step, h] at hs <;> cases hs

/-- Left to itself after a wake the `ev_trap` branch took, the hart never folds: whatever the
hart thread does next, `ev_int` and `ev_int_mask` stay as they are and no fold can be taken, until
another thread stores to them or to `wait_event`. -/
theorem armed_no_fold {S S' : Sys n} (hA : S.Armed) {acts : List (Act n)}
    (hr : S.run acts = some S') (hacts : ∀ a ∈ acts, a.ofHart = true) :
    S'.hart.evInt = S.hart.evInt ∧ S'.hart.evIntMask = S.hart.evIntMask ∧
      ∀ tp, S'.step (.fold tp) = none := by
  have h := Sys.run_induction
    (fun T => T.Armed ∧ T.hart.evInt = S.hart.evInt ∧ T.hart.evIntMask = S.hart.evIntMask)
    (fun a => a.ofHart = true)
    (fun _ _ _ ⟨hA, hint, hmask⟩ ha hs =>
      let ⟨hA', hint', hmask'⟩ := hA.step ha hs
      ⟨hA', hint'.trans hint, hmask'.trans hmask⟩)
    hacts ⟨hA, rfl, rfl⟩ hr
  refine ⟨h.2.1, h.2.2, fun tp => ?_⟩
  rcases h.1 with h | ⟨h, -⟩ | ⟨h, -⟩ <;> simp only [Sys.step, h]

/-- The guest traps; a post of cause 9 lands before the hart leaves `riscv32_run_till_event`, and
the `ev_trap` branch takes its wake. -/
def trapTakesWake : List (Act 1) :=
  [.arm, .exec (.trap 2 0), .load 0 9, .storeMask 0, .raise 0, .wake 0, .leave, .test]

theorem trap_defers_post :
    ∃ S, (Sys.init 1 (HartState.init 0)).run trapTakesWake = some S ∧ S.hart.evInt = true ∧
      S.hart.evIntMask.getLsbD 9 = true ∧
      ∀ acts S', S.run acts = some S' → (∀ a ∈ acts, a.ofHart = true) →
        S'.hart.evInt = true ∧ S'.hart.evIntMask.getLsbD 9 = true ∧
          ∀ tp, S'.step (.fold tp) = none := by
  obtain ⟨S, hrun⟩ : ∃ S, (Sys.init 1 (HartState.init 0)).run trapTakesWake = some S :=
    ⟨_, rfl⟩
  have hint : S.hart.evInt = true := by cases hrun; rfl
  have hmask : S.hart.evIntMask.getLsbD 9 = true := by cases hrun; rfl
  have hA : S.Armed := .inl (by cases hrun; rfl)
  refine ⟨S, hrun, hint, hmask, fun acts S' hr hacts => ?_⟩
  obtain ⟨hint', hmask', hfold⟩ := armed_no_fold hA hr hacts
  exact ⟨hint'.trans hint, hmask' ▸ hmask, hfold⟩

end Posting

end Rvvm.Hart
