import Rvvm.Basic

/-!
# `spin_lock` between threads

`spinlock.h` builds a lock on one `atomic_int`: `spin_lock` repeats
`atomic_exchange_explicit(&lock->flag, 1, memory_order_acquire)` until it returns `0`, and
`spin_unlock` stores `0`. With C11 atomics the exchange is one indivisible step. `Sys` is any
number of threads around one lock. Each thread is outside the lock, spinning in `spin_lock`, or
holding the lock and making the updates of its critical section, one by one, to the state the
lock guards. A step (`Sys.step`) is one action of one thread, so a list of actions is an
interleaving.

`Inv` holds in every state a run reaches (`reachable_inv`). The flag is `1` exactly when a thread
holds the lock, and then only that thread holds it (`reachable_mutex`). The guarded state is what
the critical sections finished so far make of the initial state, applied one after another in the
order they held the lock, followed by the updates the holder has made so far
(`reachable_serialized`). So no update made under the lock is lost or made twice, whatever the
interleaving. While the lock is free, the next exchange of a spinning thread takes it
(`reachable_exchange_free`).

The log of finished sections in `Sys` is ghost state: the code keeps no such list. Memory orders
are taken as sequentially consistent.
-/

namespace Rvvm.Spinlock

variable {σ : Type} {n : Nat}

/-- A critical section: the updates a thread makes to the guarded state, one after another. -/
abbrev Section (σ : Type) := List (σ → σ)

/-- The updates of a section, applied in order. -/
def Section.apply (body : Section σ) (s : σ) : σ := body.foldl (fun s f => f s) s

@[simp] theorem Section.apply_nil (s : σ) : Section.apply ([] : Section σ) s = s := rfl

@[simp] theorem Section.apply_append (a b : Section σ) (s : σ) :
    Section.apply (a ++ b) s = Section.apply b (Section.apply a s) := List.foldl_append _ _ _ _

@[simp] theorem Section.apply_singleton (f : σ → σ) (s : σ) : Section.apply [f] s = f s := rfl

/-- Where a thread is in the code around the lock. -/
inductive Pc (σ : Type) where
  /-- Outside `spin_lock` and the critical section. -/
  | outside
  /-- In the `while` loop of `spin_lock`, to run `body` once it has the lock. -/
  | spinning (body : Section σ)
  /-- Holding the lock, having made the updates `done`, with `rest` still to make. -/
  | holding (done rest : Section σ)

/-- The thread holds the lock. -/
def Pc.held : Pc σ → Bool
  | .holding _ _ => true
  | _ => false

@[simp] theorem Pc.held_outside : (Pc.outside : Pc σ).held = false := rfl

@[simp] theorem Pc.held_spinning (body : Section σ) : (Pc.spinning body).held = false := rfl

@[simp] theorem Pc.held_holding (done rest : Section σ) : (Pc.holding done rest).held = true := rfl

/-- Threads around one `spinlock_t`: its `flag`, where each thread is, the state the lock guards,
and, as ghost state, the critical sections finished so far, in order. -/
structure Sys (σ : Type) (n : Nat) where
  flag : Int
  pc : Fin n → Pc σ
  shared : σ
  log : List (Section σ)

/-- What one thread does next. -/
inductive Act (σ : Type) (n : Nat) where
  /-- Call `spin_lock`, to run `body` under the lock. -/
  | lock (t : Fin n) (body : Section σ)
  /-- One exchange of the `while` loop of `spin_lock`. -/
  | exchange (t : Fin n)
  /-- The next update of the critical section. -/
  | update (t : Fin n)
  /-- `spin_unlock`, once the section is done. -/
  | unlock (t : Fin n)

/-- After `spin_init`: the flag is `0` and every thread is outside. -/
def Sys.init (n : Nat) (s0 : σ) : Sys σ n := ⟨0, fun _ => .outside, s0, []⟩

/-- One action, or `none` when the thread is not at a point where it can take it. -/
def Sys.step (S : Sys σ n) : Act σ n → Option (Sys σ n)
  | .lock t body =>
    match S.pc t with
    | .outside => some { S with pc := Function.update S.pc t (.spinning body) }
    | _ => none
  | .exchange t =>
    match S.pc t with
    | .spinning body =>
      if S.flag ≠ 0 then some { S with flag := 1 }
      else some { S with flag := 1, pc := Function.update S.pc t (.holding [] body) }
    | _ => none
  | .update t =>
    match S.pc t with
    | .holding done (f :: rest) =>
      some { S with shared := f S.shared, pc := Function.update S.pc t (.holding (done ++ [f]) rest) }
    | _ => none
  | .unlock t =>
    match S.pc t with
    | .holding done [] =>
      some { S with flag := 0, pc := Function.update S.pc t .outside, log := S.log ++ [done] }
    | _ => none

/-- An interleaving: actions one after another, up to the first one that cannot be taken. -/
def Sys.run (S : Sys σ n) : List (Act σ n) → Option (Sys σ n)
  | [] => some S
  | a :: acts => S.step a >>= fun S => S.run acts

/-- The states some interleaving reaches from `spin_init` with guarded state `s0`. -/
inductive Reachable (s0 : σ) : Sys σ n → Prop
  | init : Reachable s0 (Sys.init n s0)
  | step {S S' : Sys σ n} (a : Act σ n) : Reachable s0 S → S.step a = some S' → Reachable s0 S'

theorem Reachable.run {s0 : σ} {S S' : Sys σ n} (h : Reachable s0 S) {acts : List (Act σ n)}
    (hr : S.run acts = some S') : Reachable s0 S' := by
  induction acts generalizing S with
  | nil => cases hr; exact h
  | cons a acts ih =>
    obtain ⟨S1, h1, hr⟩ := Option.bind_eq_some.mp hr
    exact ih (h.step a h1) hr

/-- What every reachable state keeps. -/
structure Inv (s0 : σ) (S : Sys σ n) : Prop where
  /-- The flag is `0` or `1`. -/
  flag : S.flag = 0 ∨ S.flag = 1
  /-- A free lock: no thread holds it, and the finished sections made the guarded state. -/
  free : S.flag = 0 → (∀ t, (S.pc t).held = false) ∧ S.shared = Section.apply S.log.flatten s0
  /-- A taken lock: one thread holds it, and the guarded state is the finished sections followed
  by the updates that thread has made. -/
  busy : S.flag = 1 → ∃ t done rest, S.pc t = .holding done rest ∧
    (∀ u, u ≠ t → (S.pc u).held = false) ∧ S.shared = Section.apply (S.log.flatten ++ done) s0

theorem Inv.init (s0 : σ) : Inv s0 (Sys.init n s0) where
  flag := .inl rfl
  free _ := ⟨fun _ => rfl, rfl⟩
  busy h := by simp [Sys.init] at h

section Step

variable {s0 : σ} {S S' : Sys σ n}

/-- A thread that holds the lock is the one `busy` names, and the flag is `1`. -/
theorem Inv.holder (hI : Inv s0 S) {t : Fin n} {done rest : Section σ}
    (ht : S.pc t = .holding done rest) :
    S.flag = 1 ∧ S.shared = Section.apply (S.log.flatten ++ done) s0 ∧
      ∀ u, u ≠ t → (S.pc u).held = false := by
  have hflag : S.flag = 1 := hI.flag.resolve_left fun h0 => by
    simpa [ht] using (hI.free h0).1 t
  obtain ⟨t', done', rest', ht', hothers, hshared⟩ := hI.busy hflag
  obtain rfl : t = t' := by
    by_contra hne
    simpa [ht] using hothers t hne
  rw [ht] at ht'
  cases ht'
  exact ⟨hflag, hshared, hothers⟩

theorem Inv.step_lock (hI : Inv s0 S) {t : Fin n} {body : Section σ} (ht : S.pc t = .outside) :
    Inv s0 { S with pc := Function.update S.pc t (.spinning body) } where
  flag := hI.flag
  free h := by
    refine ⟨fun u => ?_, (hI.free h).2⟩
    by_cases hu : u = t
    · subst hu; simp
    · simpa [hu] using (hI.free h).1 u
  busy h := by
    obtain ⟨t', done, rest, ht', hothers, hshared⟩ := hI.busy h
    have hne : t' ≠ t := by rintro rfl; rw [ht] at ht'; cases ht'
    refine ⟨t', done, rest, by simpa [hne] using ht', fun u hu => ?_, hshared⟩
    by_cases hut : u = t
    · subst hut; simp
    · simpa [hut] using hothers u hu

theorem Inv.step_exchange (hI : Inv s0 S) {t : Fin n} {body : Section σ}
    (ht : S.pc t = .spinning body) (h : S.step (.exchange t) = some S') : Inv s0 S' := by
  simp only [Sys.step, ht] at h
  split_ifs at h with hflag <;> cases h
  · have h1 : S.flag = 1 := hI.flag.resolve_left hflag
    exact ⟨.inr rfl, fun h0 => by simp at h0, fun _ => by simpa [h1] using hI.busy h1⟩
  · obtain ⟨hfree, hshared⟩ := hI.free (not_not.mp hflag)
    refine ⟨.inr rfl, fun h0 => by simp at h0, fun _ => ⟨t, [], body, by simp,
      fun u hu => by simpa [hu] using hfree u, by simpa using hshared⟩⟩

theorem Inv.step_update (hI : Inv s0 S) {t : Fin n} {done rest : Section σ} {f : σ → σ}
    (ht : S.pc t = .holding done (f :: rest)) :
    Inv s0 { S with shared := f S.shared,
                    pc := Function.update S.pc t (.holding (done ++ [f]) rest) } := by
  obtain ⟨h1, hshared, hothers⟩ := hI.holder ht
  refine ⟨.inr h1, fun h0 => by simp [h1] at h0, fun _ =>
    ⟨t, done ++ [f], rest, by simp, fun u hu => by simpa [hu] using hothers u hu, ?_⟩⟩
  simp [hshared]

theorem Inv.step_unlock (hI : Inv s0 S) {t : Fin n} {done : Section σ}
    (ht : S.pc t = .holding done []) :
    Inv s0 { S with flag := 0, pc := Function.update S.pc t .outside, log := S.log ++ [done] } := by
  obtain ⟨-, hshared, hothers⟩ := hI.holder ht
  refine ⟨.inl rfl, fun _ => ⟨fun u => ?_, by simpa using hshared⟩, fun h => by simp at h⟩
  by_cases hu : u = t
  · subst hu; simp
  · simpa [hu] using hothers u hu

/-- Every action keeps the invariant. -/
theorem Inv.step (hI : Inv s0 S) {a : Act σ n} (h : S.step a = some S') : Inv s0 S' := by
  cases a with
  | lock t body =>
    simp only [Sys.step] at h
    split at h <;> cases h
    exact hI.step_lock ‹_›
  | exchange t =>
    cases ht : S.pc t with
    | spinning body => exact hI.step_exchange ht h
    | outside | holding => simp [Sys.step, ht] at h
  | update t =>
    simp only [Sys.step] at h
    split at h <;> cases h
    exact hI.step_update ‹_›
  | unlock t =>
    simp only [Sys.step] at h
    split at h <;> cases h
    exact hI.step_unlock ‹_›

end Step

/-! ## What the invariant gives -/

section Consequences

variable {s0 : σ} {S : Sys σ n}

theorem Inv.unique_holder (hI : Inv s0 S) {t u : Fin n} (ht : (S.pc t).held = true)
    (hu : (S.pc u).held = true) : t = u := by
  rcases hI.flag with h0 | h1
  · simp [(hI.free h0).1 t] at ht
  · obtain ⟨w, -, -, -, hothers, -⟩ := hI.busy h1
    have hw : ∀ v, (S.pc v).held = true → v = w := fun v hv => by
      by_contra hne
      simp [hothers v hne] at hv
    exact (hw t ht).trans (hw u hu).symm

theorem Inv.flag_eq_one_iff (hI : Inv s0 S) : S.flag = 1 ↔ ∃ t, (S.pc t).held = true := by
  constructor
  · intro h1
    obtain ⟨t, done, rest, ht, -, -⟩ := hI.busy h1
    exact ⟨t, by simp [ht]⟩
  · rintro ⟨t, ht⟩
    exact hI.flag.resolve_left fun h0 => by simp [(hI.free h0).1 t] at ht

theorem Inv.shared_of_free (hI : Inv s0 S) (hfree : ∀ t, (S.pc t).held = false) :
    S.shared = Section.apply S.log.flatten s0 := by
  rcases hI.flag with h0 | h1
  · exact (hI.free h0).2
  · obtain ⟨t, done, rest, ht, -, -⟩ := hI.busy h1
    simpa [ht] using hfree t

end Consequences

/-! ## Every interleaving -/

variable {s0 : σ} {S : Sys σ n}

theorem reachable_inv (h : Reachable s0 S) : Inv s0 S := by
  induction h with
  | init => exact Inv.init s0
  | step _ _ hs ih => exact ih.step hs

/-- Under every interleaving, at most one thread holds the lock, and the flag is `1` exactly
when one does. -/
theorem reachable_mutex (h : Reachable s0 S) :
    (∀ t u, (S.pc t).held = true → (S.pc u).held = true → t = u) ∧
    (S.flag = 1 ↔ ∃ t, (S.pc t).held = true) :=
  ⟨fun _ _ => (reachable_inv h).unique_holder, (reachable_inv h).flag_eq_one_iff⟩

/-- Under every interleaving, the state the lock guards is what the critical sections finished so
far make of the initial state, one after another in the order they held the lock, followed by
the updates the thread that holds the lock has made. -/
theorem reachable_serialized (h : Reachable s0 S) :
    ((∀ t, (S.pc t).held = false) → S.shared = Section.apply S.log.flatten s0) ∧
    ∀ t done rest, S.pc t = .holding done rest → S.shared = Section.apply (S.log.flatten ++ done) s0 :=
  ⟨(reachable_inv h).shared_of_free, fun _ _ _ ht => ((reachable_inv h).holder ht).2.1⟩

/-- While the lock is free, the next exchange of a spinning thread takes it. -/
theorem reachable_exchange_free (h : Reachable s0 S) (hfree : ∀ u, (S.pc u).held = false)
    {t : Fin n} {body : Section σ} (ht : S.pc t = .spinning body) :
    ∃ S', S.step (.exchange t) = some S' ∧ S'.pc t = .holding [] body ∧ S'.flag = 1 := by
  have hI := reachable_inv h
  have h0 : S.flag = 0 := hI.flag.resolve_right fun h1 => by
    obtain ⟨u, hu⟩ := hI.flag_eq_one_iff.mp h1
    simp [hfree u] at hu
  exact ⟨{ S with flag := 1, pc := Function.update S.pc t (.holding [] body) },
    by simp [Sys.step, ht, h0], by simp, rfl⟩

/-! ## Two threads on one counter -/

/-- Thread 0 takes the lock and adds one; thread 1 asks for it meanwhile to double the counter,
spins once, and takes it when thread 0 lets go. -/
def contended : List (Act Nat 2) :=
  [.lock 0 [(· + 1)], .exchange 0, .lock 1 [(· * 2)], .exchange 1, .update 0, .unlock 0]

theorem contended_mutex :
    ∃ S, (Sys.init 2 0).run (contended ++ [Act.exchange 1]) = some S ∧
      (∀ t u, (S.pc t).held = true → (S.pc u).held = true → t = u) ∧
      (S.flag = 1 ↔ ∃ t, (S.pc t).held = true) := by
  obtain ⟨S, hS⟩ : ∃ S, (Sys.init 2 0).run (contended ++ [Act.exchange 1]) = some S := by
    simp only [contended, List.cons_append, List.nil_append]
    exact ⟨_, rfl⟩
  exact ⟨S, hS, reachable_mutex (Reachable.init.run hS)⟩

theorem contended_serialized :
    ∃ S, (Sys.init 2 0).run (contended ++ [Act.exchange 1, Act.update 1, Act.unlock 1]) = some S ∧
      ((∀ t, (S.pc t).held = false) → S.shared = Section.apply S.log.flatten 0) ∧
      ∀ t done rest, S.pc t = .holding done rest →
        S.shared = Section.apply (S.log.flatten ++ done) 0 := by
  obtain ⟨S, hS⟩ : ∃ S,
      (Sys.init 2 0).run (contended ++ [Act.exchange 1, Act.update 1, Act.unlock 1]) = some S := by
    simp only [contended, List.cons_append, List.nil_append]
    exact ⟨_, rfl⟩
  exact ⟨S, hS, reachable_serialized (Reachable.init.run hS)⟩

theorem contended_exchange_free :
    ∃ S, (Sys.init 2 0).run contended = some S ∧ (∀ u, (S.pc u).held = false) ∧
      S.pc 1 = .spinning [(· * 2)] ∧
      ∃ S', S.step (.exchange 1) = some S' ∧ S'.pc 1 = .holding [] [(· * 2)] ∧ S'.flag = 1 := by
  obtain ⟨S, hS⟩ : ∃ S, (Sys.init 2 0).run contended = some S := ⟨_, rfl⟩
  have hfree : ∀ u, (S.pc u).held = false := by
    cases hS
    decide
  have ht : S.pc 1 = .spinning [(· * 2)] := by
    cases hS
    rfl
  exact ⟨S, hS, hfree, ht, reachable_exchange_free (Reachable.init.run hS) hfree ht⟩

end Rvvm.Spinlock
